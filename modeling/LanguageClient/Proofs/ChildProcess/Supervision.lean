import LanguageClient.ChildProcess.Manager
import Mathlib.Data.List.Nodup
import Mathlib.Data.List.Induction

/-!
# `LanguageClient.Proofs.ChildProcess.Supervision`: what a manager knows of its children

A manager may start one child after another, and somebody waits for each of them. What the
manager knows should be about the child that it has started last: it is running until it is
stopped, killed or found to have exited. But the exit of any child makes the manager take its
child for stopped, also the exit of an earlier one, which was killed and is found late. `state_eq`
says exactly what the manager knows, and `faithful_iff` that late exits are all that can mislead
it.

* `Moment`: a run is a list of moments; what is said of a run is said of these.
* `state_step`: what one event does to the state.
* `Stock`: who has got the streams of the children.
* `supervised`: all of it, for every run of a manager.
-/

set_option autoImplicit false

namespace LanguageClient.ChildProcess

/-- A moment of a run: an event, and the manager that it happens to. -/
structure Moment where
  manager : Manager
  event : Event

namespace Moment

/-- The process id of the child that is started, if one is. -/
def starts? (u : Moment) : Option Nat :=
  match u.event with
  | .start (.ok pid) =>
    if u.manager.stopping then none else (u.manager.start (.ok pid)).toOption.map fun _ => pid
  | _ => none

/-- The number of the child whose stream is handed out, if one is. -/
def handsOut? (u : Moment) : Option Nat :=
  match u.event with
  | .claim =>
    if u.manager.stopping then none
    else u.manager.claim.toOption.map fun _ => u.manager.children.length - 1
  | _ => none

/-- A child is found to have exited. -/
def Finds (u : Moment) (child : Nat) : Prop :=
  u.event = .reap child ∧
    ∃ c, u.manager.children[child]? = some c ∧ c.exited = true ∧ c.reaped = false

/-- The child that was started last is stopped, killed or found to have exited. -/
inductive Ends (u : Moment) : Prop where
  | stopped (event : u.event = .proceed) (done : u.manager.proceed.1 = true)
  | killed (event : u.event = .kill) (free : u.manager.stopping = false)
  | found (child : Nat) (finds : u.Finds child) (last : child + 1 = u.manager.children.length)

/-- An earlier child is found to have exited. -/
def Late (u : Moment) : Prop :=
  ∃ child, u.Finds child ∧ child + 1 < u.manager.children.length

end Moment

/-- The child that was started last has a process id, and nothing has ended it since. -/
def Lasts (ends : Moment → Prop) (moments : List Moment) (pid : Nat) : Prop :=
  ∃ before t after, moments = before ++ t :: after ∧ t.starts? = some pid ∧
    ∀ u ∈ after, ¬ends u ∧ u.starts? = none

/-- The process ids of the children started, in order. -/
def started (moments : List Moment) : List Nat := moments.filterMap Moment.starts?

/-- The numbers of the children whose streams were handed out, in order. -/
def handed (moments : List Moment) : List Nat := moments.filterMap Moment.handsOut?

variable {m : Manager} {e : Event} {events : List Event} {pid : Nat}

namespace Manager

/-- The moments of a run. -/
def moments (m : Manager) : List Event → List Moment
  | [] => []
  | e :: later => ⟨m, e⟩ :: (m.step e).moments later

/-- At every moment the manager knows of the child that it has started last: it is running as
long as it is not stopped, killed or found to have exited. -/
def Faithful (m : Manager) (events : List Event) : Prop :=
  ∀ part, part <+: events → ∀ pid,
    ((m.run part).state = .running pid ↔ Lasts Moment.Ends (m.moments part) pid)

/-- An earlier child is found to have exited while the last one lasts. -/
def Disturbed (m : Manager) (events : List Event) : Prop :=
  ∃ part e, part ++ [e] <+: events ∧ Moment.Late ⟨m.run part, e⟩ ∧
    ∃ pid, Lasts Moment.Ends (m.moments part) pid

/-- The last event of a run happens to the manager that the others have made. Runs are taken apart
from the end, since what matters is what came last. -/
theorem run_concat (m : Manager) (events : List Event) (e : Event) :
    m.run (events ++ [e]) = (m.run events).step e := by
  simp [run]

/-- The last event of a run has the last moment, which is the manager that the others have left. -/
theorem moments_concat (m : Manager) (events : List Event) (e : Event) :
    m.moments (events ++ [e]) = m.moments events ++ [⟨m.run events, e⟩] := by
  induction events generalizing m with
  | nil => rfl
  | cons first events ih =>
    have hrest := ih (m.step first)
    simp [moments, hrest, run]

end Manager

/-- A child that lasts has just been started, or it lasts and the last moment has not ended it. This
is the step of every induction below, so that none of them has to split a run. -/
theorem lasts_concat (ends : Moment → Prop) (moments : List Moment) (u : Moment) :
    Lasts ends (moments ++ [u]) pid ↔
      u.starts? = some pid ∨ (Lasts ends moments pid ∧ ¬ends u ∧ u.starts? = none) := by
  constructor
  · rintro ⟨before, t, after, hsplit, hstart, hrest⟩
    -- The child was started at the last moment, or at one before it.
    rcases List.eq_nil_or_concat after with rfl | ⟨after, last, rfl⟩
    · obtain ⟨-, rfl⟩ := (List.append_inj' hsplit rfl).imp_right List.singleton_inj.mp
      exact .inl hstart
    · rw [List.concat_eq_append] at hsplit hrest
      rw [← List.cons_append, ← List.append_assoc] at hsplit
      obtain ⟨rfl, rfl⟩ := (List.append_inj' hsplit rfl).imp_right List.singleton_inj.mp
      have hlast := hrest u (by simp)
      refine .inr ⟨⟨before, t, after, rfl, hstart, ?_⟩, hlast⟩
      intro v hv
      exact hrest v (by simp [hv])
  · rintro (hstart | ⟨⟨before, t, after, rfl, hstart, hrest⟩, hlast⟩)
    · exact ⟨moments, u, [], rfl, hstart, by simp⟩
    · refine ⟨before, t, after ++ [u], by simp, hstart, ?_⟩
      intro v hv
      rcases List.mem_append.mp hv with hbefore | hnow
      · exact hrest v hbefore
      · obtain rfl := List.mem_singleton.mp hnow
        exact hlast

/-- No child lasts before anything has happened. -/
theorem not_lasts_nil (ends : Moment → Prop) : ¬Lasts ends [] pid := by
  rintro ⟨before, t, after, hsplit, -⟩
  simp at hsplit

/-! ### What an event does -/

namespace Moment

/-- A child is started only by a manager that does not wait for an exit and takes none for
running. -/
theorem starts?_eq_some (h : starts? ⟨m, e⟩ = some pid) :
    e = .start (.ok pid) ∧ m.stopping = false ∧ m.isRunning = false := by
  unfold starts? at h
  split at h
  · rename_i p he
    obtain rfl : e = .start (.ok p) := he
    cases hstopping : m.stopping with
    -- While an exit is awaited no call gets as far as the manager.
    | true => simp [hstopping] at h
    | false =>
      cases hrunning : m.isRunning with
      | true => simp [hstopping, Manager.start, hrunning, Except.toOption] at h
      | false =>
        obtain rfl : p = pid := by
          simpa [hstopping, Manager.start, hrunning, Except.toOption] using h
        exact ⟨rfl, rfl, rfl⟩
  · simp at h

/-- A stream is handed out if there is one left, and then none is left. It is the stream of the
child that was started last. -/
theorem handsOut?_eq_some {child : Nat} (h : handsOut? ⟨m, e⟩ = some child) :
    e = .claim ∧ m.unclaimed.isSome = true ∧ child = m.children.length - 1 ∧
      (m.step e).unclaimed = none := by
  unfold handsOut? at h
  split at h
  · rename_i he
    obtain rfl : e = .claim := he
    cases hstopping : m.stopping with
    | true => simp [hstopping] at h
    | false =>
      cases hunclaimed : m.unclaimed with
      | none => simp [hstopping, Manager.claim, hunclaimed, Except.toOption] at h
      | some stream =>
        -- The stream that is kept is that of the last child, since each start replaces it.
        have hchild : m.children.length - 1 = child := by
          simpa [hstopping, Manager.claim, hunclaimed, Except.toOption] using h
        have hstep : m.step .claim = { m with unclaimed := none } := by
          simp [Manager.step, hstopping, Manager.claim, hunclaimed, Except.toOption]
        exact ⟨rfl, rfl, hchild.symm, by rw [hstep]⟩
  · simp at h

/-- A late exit is not the exit of the last child, and it starts nothing. So it should make no
difference to what lasts, and the difference it makes to the manager is the defect. -/
theorem Late.not_ends {u : Moment} (h : u.Late) : ¬u.Ends ∧ u.starts? = none := by
  obtain ⟨child, ⟨he, -⟩, hearlier⟩ := h
  constructor
  · intro hends
    cases hends with
    | stopped event => simp [he] at event
    | killed event => simp [he] at event
    | found other finds last =>
      obtain rfl := Event.reap.inj (he.symm.trans finds.1)
      omega
  · simp [starts?, he]

/-- A child that is found to have exited is the last one or an earlier one. The manager does not
tell the two apart. -/
theorem Finds.ends_or_late {u : Moment} {child : Nat} (h : u.Finds child) :
    u.Ends ∨ u.Late := by
  obtain ⟨-, c, hc, -⟩ := id h
  have hlt : child < u.manager.children.length := (List.getElem?_eq_some_iff.mp hc).1
  rcases Nat.lt_or_ge (child + 1) u.manager.children.length with hearlier | hlast
  · exact .inr ⟨child, h, hearlier⟩
  · exact .inl (.found child h (by omega))

end Moment

namespace Manager

/-- What a manager is once it has started a child. The stream to hand out is that of the new child,
whether or not the one before was handed out. -/
theorem step_of_starts (h : Moment.starts? ⟨m, e⟩ = some pid) :
    m.step e = { m with
      state := .running pid
      reports := false
      children := m.children ++ [{ pid, monitor := { reports := m.reports } }]
      unclaimed := some {} } := by
  obtain ⟨rfl, hfree, hidle⟩ := Moment.starts?_eq_some h
  simp [step, start, hfree, hidle, Except.toOption]

/-- A start that starts nothing changes nothing. It is refused while a stop is under way or a child
runs, and fails if the system does not spawn the child; none of the three leaves a trace. -/
theorem step_of_not_starts {verdict : Except SystemError Nat}
    (h : Moment.starts? ⟨m, .start verdict⟩ = none) : m.step (.start verdict) = m := by
  cases hstopping : m.stopping with
  | true => simp [step, hstopping]
  | false =>
    cases hrunning : m.isRunning with
    | true => simp [step, hstopping, start, hrunning, Except.toOption]
    | false =>
      cases verdict with
      | error cause => simp [step, hstopping, start, hrunning, Except.toOption]
      | ok pid => simp [Moment.starts?, hstopping, start, hrunning, Except.toOption] at h

/-- The exit of any child makes the manager take its child for stopped. Which child it was is noted
with that child alone, so that the manager cannot know better later. -/
theorem step_of_finds {child : Nat} (h : Moment.Finds ⟨m, e⟩ child) :
    m.step e =
      { m.update child fun c => { c with reaped := true } with state := .stopped } := by
  obtain ⟨he, c, hc, hexited, hreaped⟩ := h
  obtain rfl : e = .reap child := he
  have hchild : m.children[child]? = some c := hc
  simp [step, reap, hchild, hexited, hreaped]

/-- Nothing is noticed if there is no exit, or if it was noticed before. So a wait task that finds
nothing leaves the state to those before it, as `stays_step` needs. -/
theorem step_of_not_finds {child : Nat} (h : ¬Moment.Finds ⟨m, .reap child⟩ child) :
    m.step (.reap child) = m := by
  show m.reap child = m
  unfold reap
  split
  · rename_i c hc
    split
    · rename_i hexit
      exact absurd ⟨rfl, c, hc, hexit.1, by simpa using hexit.2⟩ h
    · rfl
  · rfl

/-- After a kill no child is taken for running. -/
theorem not_running_kill (m : Manager) (pid : Nat) : m.kill.state ≠ .running pid := by
  unfold kill
  split
  · simp
  · rename_i hidle
    intro hrunning
    simp [isRunning, hrunning, State.pid?] at hidle

/-- Once the last child has ended or an earlier one is found to have exited, the manager takes no
child for running. For late exits this says that they mislead it in every case. -/
theorem not_running_of_ends (h : Moment.Ends ⟨m, e⟩ ∨ Moment.Late ⟨m, e⟩) (pid : Nat) :
    (m.step e).state ≠ .running pid := by
  rcases h with hends | ⟨child, hfinds, -⟩
  · cases hends with
    | stopped event done =>
      obtain rfl : e = .proceed := event
      have hdone : m.proceed.1 = true := done
      show m.proceed.2.state ≠ _
      unfold proceed at hdone ⊢
      split at hdone
      · rename_i hwaited
        simp [hwaited]
      · simp at hdone
    | killed event free =>
      obtain rfl : e = .kill := event
      have hfree : m.stopping = false := free
      have hstep : m.step .kill = m.kill := by simp [step, hfree]
      rw [hstep]
      exact not_running_kill m pid
    -- The two ways of finding an exit are one event to the manager.
    | found child finds => simp [step_of_finds finds]
  · simp [step_of_finds hfinds]

/-- No change of a child changes its process id, so the list of them grows by starts only. -/
theorem pids_update {f : Child → Child} (hf : ∀ c, (f c).pid = c.pid) (m : Manager)
    (child : Nat) : (m.update child f).children.map Child.pid = m.children.map Child.pid := by
  apply List.ext_getElem?
  intro i
  rw [update, List.getElem?_map, List.getElem?_modify, List.getElem?_map]
  split <;> simp [Function.comp_def, hf]

/-- In particular no signal does. -/
theorem pids_signal (m : Manager) (s : Signal) :
    (m.signal s).children.map Child.pid = m.children.map Child.pid :=
  pids_update (fun _ => by rfl) m _

/-- The numbers of the children do not change when a monitor is stopped. -/
theorem pids_stopMonitor (m : Manager) :
    m.stopMonitor.children.map Child.pid = m.children.map Child.pid :=
  pids_update (fun _ => by rfl) m _

/-- What a manager keeps when no child is started: what it takes its child for, unless that is
over; the children; and a stream to hand out, unless it has given that up. -/
structure Stays (m : Manager) (ended : Prop) (after : Manager) : Prop where
  state : ¬ended → after.state = m.state
  pids : after.children.map Child.pid = m.children.map Child.pid
  stream : after.unclaimed.isSome = true → m.unclaimed.isSome = true

variable {ended : Prop} {after : Manager}

/-- What does nothing keeps everything. -/
theorem Stays.refl : Stays m ended m := ⟨fun _ => rfl, rfl, id⟩

/-- What concerns a child alone leaves the state, the numbers and the stream of its manager. -/
theorem Stays.update {f : Child → Child} (hf : ∀ c, (f c).pid = c.pid) (child : Nat) :
    Stays m ended (m.update child f) := ⟨fun _ => rfl, pids_update hf m child, id⟩

/-- What ends the child in fewer cases may be said to end it in more. -/
theorem Stays.mono {weaker : Prop} (h : Stays m ended after) (hended : ended → weaker) :
    Stays m weaker after := ⟨fun hnot => h.state fun hnow => hnot (hended hnow), h.pids, h.stream⟩

/-- While the manager waits for an exit, its owner does nothing. So the events of the owner have to
be looked at for a manager that does not wait. -/
theorem Stays.guard (h : m.stopping = false → Stays m ended after) :
    Stays m ended (if m.stopping then m else after) := by
  split
  · exact .refl
  · rename_i hfree
    exact h (by simpa using hfree)

/-- A call that fails does nothing, so it is enough to look at the one that succeeds. -/
theorem Stays.call {result : Except Failure Manager}
    (h : ∀ after, result = .ok after → Stays m ended after) :
    Stays m ended (result.toOption.getD m) := by
  cases result with
  | error failure => exact .refl
  | ok after => exact h after rfl

/-- A kill ends the child, and changes nothing else that counts. -/
theorem stays_kill : Stays m True m.kill := by
  unfold kill
  split
  · exact ⟨nofun, (pids_stopMonitor _).trans (pids_signal m .kill), id⟩
  · exact .refl

/-- Asking a child to stop does not end it yet. The stream that was not handed out is given up. -/
theorem stays_beginStop {mode : StopMode} (h : m.beginStop mode = .ok after) :
    Stays m ended after := by
  unfold beginStop at h
  split at h
  · obtain rfl := Except.ok.inj h
    exact ⟨fun _ => rfl, pids_signal m mode.signal, nofun⟩
  · exact nomatch h

/-- To hand out a stream leaves the child as it is. -/
theorem stays_claim : Stays m ended ((m.claim.toOption.map Prod.snd).getD m) := by
  unfold claim
  split
  · exact ⟨fun _ => rfl, rfl, nofun⟩
  · exact .refl

/-- An event that starts no child is over with the one there is if it ends it or an earlier one is
found to have exited. It is the one place where the events are told apart; what is said of a run
comes from this and from `step_of_starts`. -/
theorem stays_step (h : Moment.starts? ⟨m, e⟩ = none) :
    Stays m (Moment.Ends ⟨m, e⟩ ∨ Moment.Late ⟨m, e⟩) (m.step e) := by
  cases e with
  | onErrorLine => exact .guard fun _ => ⟨fun _ => rfl, rfl, id⟩
  | start verdict =>
    rw [step_of_not_starts h]
    exact .refl
  | claim => exact .guard fun _ => stays_claim
  -- A kill ends the child at once, whereas a stop only begins here and may be waited for.
  | kill => exact .guard fun hfree => stays_kill.mono fun _ => .inl (.killed rfl hfree)
  | beginStop mode => exact .guard fun _ => .call fun after hbegin => stays_beginStop hbegin
  | proceed =>
    show Stays m _ m.proceed.2
    unfold proceed
    split
    · rename_i hwaited
      -- The wait is over, so the child is stopped.
      refine ⟨fun hnot => ?_, pids_stopMonitor m, id⟩
      exact absurd (.inl (.stopped rfl (by simp [proceed, hwaited]))) hnot
    · exact .refl
  | overdue =>
    show Stays m _ m.overdue
    unfold overdue
    split
    · exact .update (fun _ => by rfl) _
    · exact .refl
  -- An exit alone changes no state. Nobody knows of it until it is found.
  | exit child => exact .update (fun _ => by rfl) child
  | reap child =>
    by_cases hfinds : Moment.Finds ⟨m, .reap child⟩ child
    · -- An exit is found, of the last child or of an earlier one.
      rw [step_of_finds hfinds]
      refine ⟨fun hnot => absurd hfinds.ends_or_late hnot, ?_, id⟩
      exact pids_update (fun _ => by rfl) m child
    · rw [step_of_not_finds hfinds]
      exact .refl
  | errorBytes child bytes => exact .update (fun _ => by rfl) child
  | errorEnd child => exact .update (fun _ => by rfl) child

/-- A manager takes a child for running after an event if it has just started it, or if it did so
before and neither that child has ended nor an earlier one is found to have exited. -/
theorem state_step (m : Manager) (e : Event) (pid : Nat) :
    (m.step e).state = .running pid ↔
      Moment.starts? ⟨m, e⟩ = some pid ∨
        (m.state = .running pid ∧ ¬(Moment.Ends ⟨m, e⟩ ∨ Moment.Late ⟨m, e⟩) ∧
          Moment.starts? ⟨m, e⟩ = none) := by
  cases hstart : Moment.starts? ⟨m, e⟩ with
  | some p => simp [step_of_starts hstart]
  | none =>
    by_cases hends : Moment.Ends ⟨m, e⟩ ∨ Moment.Late ⟨m, e⟩
    · simp [not_running_of_ends hends, hends]
    · simp [(stays_step hstart).state hends, hends]

/-! ### What a run does to the state -/

/-- What a manager takes its child for: it has started it last, and since then neither that child
has ended nor an earlier one was found to have exited. By induction on the run from its end, with
`state_step` for the state and `lasts_concat` for what is said of it. -/
theorem state_eq (hidle : m.isRunning = false) (events : List Event) (pid : Nat) :
    (m.run events).state = .running pid ↔
      Lasts (fun u => u.Ends ∨ u.Late) (m.moments events) pid := by
  induction events using List.reverseRecOn with
  | nil =>
    have hstate : m.state ≠ .running pid := by
      intro hrunning
      simp [isRunning, hrunning, State.pid?] at hidle
    simpa [run, moments, hstate] using not_lasts_nil _
  | append_singleton events e ih =>
    rw [run_concat, moments_concat, lasts_concat, state_step, ih]

/-- What does not disturb a run does not disturb the beginning of it. -/
theorem not_disturbed_of_part {part : List Event} (h : ¬Disturbed m events)
    (hpart : part <+: events) : ¬Disturbed m part := by
  rintro ⟨before, e, hbefore, hlate⟩
  exact h ⟨before, e, hbefore.trans hpart, hlate⟩

/-- As long as no late exit disturbs it, the child that the manager takes for running is the one
that lasts. The hypothesis is about exits that come while the child lasts: others find nothing to
overrule. -/
theorem state_of_not_disturbed (hidle : m.isRunning = false) (h : ¬Disturbed m events)
    (pid : Nat) :
    (m.run events).state = .running pid ↔ Lasts Moment.Ends (m.moments events) pid := by
  induction events using List.reverseRecOn with
  | nil => simpa [moments, not_lasts_nil] using state_eq hidle [] pid
  | append_singleton events e ih =>
    have hcalm : ¬Disturbed m events := not_disturbed_of_part h (List.prefix_append _ _)
    -- A late exit at this moment would find the child lasting.
    have hlate : Lasts Moment.Ends (m.moments events) pid → ¬Moment.Late ⟨m.run events, e⟩ := by
      intro hlasts hlate
      exact h ⟨events, e, List.prefix_refl _, hlate, pid, hlasts⟩
    rw [run_concat, moments_concat, lasts_concat, state_step, ih hcalm]
    constructor
    · rintro (hstart | ⟨hlasts, hends, hnone⟩)
      · exact .inl hstart
      · exact .inr ⟨hlasts, fun hend => hends (.inl hend), hnone⟩
    · rintro (hstart | ⟨hlasts, hends, hnone⟩)
      · exact .inl hstart
      · exact .inr ⟨hlasts, not_or.mpr ⟨hends, hlate hlasts⟩, hnone⟩

/-- Late exits are all that can mislead a manager, and each one does that finds a later child
lasting. From left to right a late exit makes the manager take a child for stopped that lasts; from
right to left there is none at any moment. -/
theorem faithful_iff (hidle : m.isRunning = false) (events : List Event) :
    Faithful m events ↔ ¬Disturbed m events := by
  constructor
  · rintro hfaithful ⟨part, e, hpart, hlate, pid, hlasts⟩
    have hstill : Lasts Moment.Ends (m.moments (part ++ [e])) pid := by
      rw [moments_concat, lasts_concat]
      exact .inr ⟨hlasts, hlate.not_ends⟩
    have hrunning := (hfaithful _ hpart pid).mpr hstill
    rw [run_concat] at hrunning
    exact not_running_of_ends (.inr hlate) pid hrunning
  · intro hcalm part hpart pid
    exact state_of_not_disturbed hidle (not_disturbed_of_part hcalm hpart) pid

/-! ### What becomes of the streams -/

/-- What a manager has started and handed out: its children are those it has started, it has
handed out the stream of each of them once at most, and the one it has left is that of the last
child. -/
structure Stock (m : Manager) (moments : List Moment) : Prop where
  pids : m.children.map Child.pid = started moments
  nodup : (handed moments).Nodup
  bound : ∀ child ∈ handed moments, child < (started moments).length
  left : m.unclaimed.isSome = true →
    ∃ last, m.children.length = last + 1 ∧ last ∉ handed moments

/-- A moment adds the process id of the child that it starts, if it starts one. -/
theorem started_concat (moments : List Moment) (u : Moment) :
    started (moments ++ [u]) = started moments ++ u.starts?.toList := by
  cases hstart : u.starts? <;> simp [started, hstart]

/-- The last moment adds the number of the child whose stream it hands out, if it hands out one. -/
theorem handed_concat (moments : List Moment) (u : Moment) :
    handed (moments ++ [u]) = handed moments ++ u.handsOut?.toList := by
  cases hclaim : u.handsOut? <;> simp [handed, hclaim]

/-- The children are as many as the starts, so the number of the next one is the number of starts so
far. -/
theorem Stock.length {moments : List Moment} (h : Stock m moments) :
    m.children.length = (started moments).length := by
  rw [← h.pids, List.length_map]

/-- A start keeps the stock. A stream that comes with a new child has not been handed out, since all
that were handed out belong to earlier ones. -/
theorem Stock.starts {moments : List Moment} (h : Stock m moments)
    (hstart : Moment.starts? ⟨m, e⟩ = some pid) : Stock (m.step e) (moments ++ [⟨m, e⟩]) := by
  obtain ⟨rfl, -, -⟩ := Moment.starts?_eq_some hstart
  have hstarted : started (moments ++ [⟨m, .start (.ok pid)⟩]) = started moments ++ [pid] := by
    rw [started_concat, hstart, Option.toList_some]
  have hhanded : handed (moments ++ [⟨m, .start (.ok pid)⟩]) = handed moments := by
    rw [handed_concat]
    exact List.append_nil _
  rw [step_of_starts hstart]
  refine ⟨?_, ?_, ?_, fun _ => ⟨m.children.length, ?_, ?_⟩⟩
  · -- The new process id is the last one.
    simp [hstarted, h.pids]
  · rw [hhanded]
    exact h.nodup
  · intro child hchild
    rw [hhanded] at hchild
    have hlt := h.bound child hchild
    rw [hstarted, List.length_append, List.length_singleton]
    omega
  · simp
  · -- What is left is the stream of the new child, and earlier ones were handed out at most.
    intro hmem
    rw [hhanded] at hmem
    have hlt := h.bound _ hmem
    have hlength := h.length
    omega

/-- An event that starts no child keeps the stock. A stream is handed out only if its child was
started last and it is there still. -/
theorem Stock.stays {moments : List Moment} (h : Stock m moments)
    (hstart : Moment.starts? ⟨m, e⟩ = none) : Stock (m.step e) (moments ++ [⟨m, e⟩]) := by
  have hstays := stays_step hstart
  have hstarted : started (moments ++ [⟨m, e⟩]) = started moments := by
    rw [started_concat, hstart, Option.toList_none, List.append_nil]
  have hhanded := handed_concat moments ⟨m, e⟩
  have hpids : (m.step e).children.map Child.pid = started (moments ++ [⟨m, e⟩]) := by
    rw [hstays.pids, hstarted, h.pids]
  cases hclaim : Moment.handsOut? ⟨m, e⟩ with
  | none =>
    rw [hclaim, Option.toList_none, List.append_nil] at hhanded
    have hsame : (m.step e).children.length = m.children.length := by
      simpa using congrArg List.length hstays.pids
    -- Nothing is handed out, and what is left was left before.
    refine ⟨hpids, ?_, ?_, fun hleft => ?_⟩
    · rw [hhanded]
      exact h.nodup
    · rw [hhanded, hstarted]
      exact h.bound
    · rw [hhanded, hsame]
      exact h.left (hstays.stream hleft)
  | some child =>
    rw [hclaim, Option.toList_some] at hhanded
    obtain ⟨-, hleft, hchild, hgone⟩ := Moment.handsOut?_eq_some hclaim
    obtain ⟨last, hlast, hnew⟩ := h.left hleft
    obtain rfl : child = last := by omega
    have hlength := h.length
    -- The stream that was left is handed out, for the first time, and none is left.
    refine ⟨hpids, ?_, ?_, fun hstill => ?_⟩
    · rw [hhanded]
      exact List.Nodup.append h.nodup (List.nodup_singleton child)
        (List.disjoint_singleton.mpr hnew)
    · intro other hother
      rw [hstarted]
      rw [hhanded] at hother
      rcases List.mem_append.mp hother with hbefore | hnow
      · exact h.bound other hbefore
      · obtain rfl := List.mem_singleton.mp hnow
        omega
    · simp [hgone] at hstill

/-- Every event keeps the stock. -/
theorem Stock.step {moments : List Moment} (h : Stock m moments) (e : Event) :
    Stock (m.step e) (moments ++ [⟨m, e⟩]) := by
  cases hstart : Moment.starts? ⟨m, e⟩ with
  | some pid => exact h.starts hstart
  | none => exact h.stays hstart

/-- The stock is kept from the first moment to the last. -/
theorem stock_run (hnew : Stock m []) (events : List Event) :
    Stock (m.run events) (m.moments events) := by
  induction events using List.reverseRecOn with
  | nil => exact hnew
  | append_singleton events e ih =>
    rw [run_concat, moments_concat]
    exact ih.step e

/-! ### A manager and its children -/

/-- What holds after any run of a manager:

- `state`: it takes a child for running if it has started it last, and since then neither that
  child was stopped, killed or found to have exited nor an earlier one was found to have exited;
- `faithful`: so what it knows is about the last child alone exactly if no earlier one is found
  to have exited while that one lasts;
- `starting`, `stopping`: a child can be started exactly if none is running for the manager, and
  stopped exactly if one is, and a call that fails for this reason changes nothing;
- `streams`: of each child that was started, the stream is handed out once at most. -/
structure Supervised (m : Manager) (events : List Event) : Prop where
  state : ∀ pid, (m.run events).state = .running pid ↔
    Lasts (fun u => u.Ends ∨ u.Late) (m.moments events) pid
  faithful : Faithful m events ↔ ¬Disturbed m events
  starting : ∀ verdict,
    ((m.run events).start verdict = .error .alreadyStarted ↔
      ∃ pid, (m.run events).state = .running pid) ∧
    ((m.run events).start verdict = .error .alreadyStarted →
      (m.run events).step (.start verdict) = m.run events)
  stopping : ∀ mode,
    ((m.run events).beginStop mode = .error .notStarted ↔
      ¬∃ pid, (m.run events).state = .running pid) ∧
    ((m.run events).beginStop mode = .error .notStarted →
      (m.run events).step (.beginStop mode) = m.run events)
  streams : (handed (m.moments events)).Nodup ∧
    ∀ child ∈ handed (m.moments events), child < (started (m.moments events)).length

/-- A manager says that it runs exactly if it takes a child for running. -/
theorem isRunning_iff : m.isRunning = true ↔ ∃ pid, m.state = .running pid := by
  unfold isRunning State.pid?
  split
  · rename_i pid hstate
    simp [hstate]
  · rename_i hstate
    simpa using hstate

/-- A start is refused exactly if a child is taken for running. It need not be running: that is
where a late exit does its harm. -/
theorem start_eq_alreadyStarted_iff (m : Manager) (verdict : Except SystemError Nat) :
    m.start verdict = .error .alreadyStarted ↔ m.isRunning = true := by
  unfold start
  split
  · rename_i hrunning
    simp [hrunning]
  · rename_i hidle
    cases verdict <;> simp [hidle]

/-- A stop is refused exactly if no child is taken for running. -/
theorem beginStop_eq_notStarted_iff (m : Manager) (mode : StopMode) :
    m.beginStop mode = .error .notStarted ↔ ¬m.isRunning = true := by
  unfold beginStop
  split
  · rename_i hrunning
    simp [hrunning]
  · rename_i hidle
    simp [hidle]

/-- Whatever is asked of a manager, and whenever its children exit and are found to have exited, it
is misled about the child that it has started last by late exits only. What it answers follows what
it believes, and each stream is handed out once at most. -/
theorem supervised (command : String) (arguments : List String) (directory : Option Path)
    (events : List Event) : Supervised { command, arguments, directory } events where
  state := state_eq rfl events
  faithful := faithful_iff rfl events
  starting verdict := by
    refine ⟨(start_eq_alreadyStarted_iff _ verdict).trans isRunning_iff, fun hfails => ?_⟩
    simp [step, hfails, Except.toOption]
  stopping mode := by
    refine ⟨?_, fun hfails => ?_⟩
    · rw [beginStop_eq_notStarted_iff, isRunning_iff]
    · simp [step, hfails, Except.toOption]
  streams := by
    -- A new manager has handed out nothing, which is where `stock_run` begins.
    have hnew : Stock { command, arguments, directory } [] := by
      refine ⟨rfl, List.nodup_nil, nofun, nofun⟩
    have hstock := stock_run hnew events
    exact ⟨hstock.nodup, hstock.bound⟩

/-- A child is killed, the next one is started, and then the first one is found to have exited.
The manager takes the second one for stopped, which nothing has ended, and drops it alive. -/
theorem overruled_by_late_exit :
    let m : Manager := { command := "server" }
    let events : List Event := [.start (.ok 1), .kill, .start (.ok 2), .exit 0, .reap 0]
    Lasts Moment.Ends (m.moments events) 2 ∧ (m.run events).state = .stopped ∧
      ¬Faithful m events ∧ (m.run events).drop.children.map Child.signals = [[.kill], []] := by
  intro m events
  have hlasts : Lasts Moment.Ends (m.moments events) 2 := by
    refine ⟨[⟨m, .start (.ok 1)⟩, ⟨m.run (events.take 1), .kill⟩],
      ⟨m.run (events.take 2), .start (.ok 2)⟩,
      [⟨m.run (events.take 3), .exit 0⟩, ⟨m.run (events.take 4), .reap 0⟩], rfl, rfl, ?_⟩
    intro u hu
    rcases List.mem_pair.mp hu with rfl | rfl
    · exact ⟨nofun, rfl⟩
    · -- The exit that is found is that of the first child, and the second has been started by then.
      exact Moment.Late.not_ends ⟨0, ⟨rfl, _, rfl, rfl, rfl⟩, by decide⟩
  have hstopped : (m.run events).state = .stopped := rfl
  refine ⟨hlasts, hstopped, fun hfaithful => ?_, rfl⟩
  have hrunning := (hfaithful events (List.prefix_refl events) 2).mpr hlasts
  rw [hstopped] at hrunning
  exact nomatch hrunning

end Manager

end LanguageClient.ChildProcess
