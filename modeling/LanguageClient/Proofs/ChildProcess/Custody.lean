import LanguageClient.ChildProcess.Manager

/-!
# `LanguageClient.Proofs.ChildProcess.Custody`: a manager of one child

A session starts one child at most. Its manager is then in one of three ways with it: it
has not sent it anything (`Spares`), it has sent a signal and waits for the exit (`Awaits`),
or it is done with it (`Leaves`). What the child and those who wait for it do by themselves
keeps each of the three (`Keeps.step`); what the owner does leads from one to the next.

`Fate` says how a child has ended once its manager is done with it: by itself, by a request
to terminate, or by a kill.
-/

set_option autoImplicit false

namespace LanguageClient.ChildProcess

variable {m after : Manager} {child child' : Child}

/-- A manager has one child. -/
structure Keeps (m : Manager) (child : Child) : Prop where
  only : m.children = [child]
  /-- An exit is noticed after it has happened. -/
  noticed : child.reaped = true → child.exited = true

/-! ### What happens by itself -/

/-- What the child and those who wait for it may do to a manager. -/
structure Passes (m : Manager) (child : Child) (after : Manager) (child' : Child) : Prop where
  keeps : Keeps after child'
  signals : child'.signals = child.signals
  stopping : after.stopping = m.stopping
  running : m.isRunning = false → after.isRunning = false
  /-- A child stops counting as running when its exit is noticed. -/
  gone : after.isRunning = false → m.isRunning = false ∨ child'.reaped = true
  exited : child.exited = true → child'.exited = true
  reaped : child.reaped = true → child'.reaped = true

/-- To change a child of a manager with only one changes that one, or nothing if the number is not
its own. -/
theorem update_of_only (h : m.children = [child]) (number : Nat) (f : Child → Child) :
    m.update number f = { m with children := [if number = 0 then f child else child] } := by
  rw [Manager.update, h]
  cases number with
  | zero => rfl
  | succ number =>
    rw [List.modify_succ_cons, List.modify_nil, if_neg (Nat.succ_ne_zero number)]

/-- The current child of such a manager is the only one. -/
theorem updateCurrent_of_only (h : m.children = [child]) (f : Child → Child) :
    m.updateCurrent f = { m with children := [f child] } := by
  rw [Manager.updateCurrent, h]
  exact update_of_only h 0 f

/-- What does nothing passes. -/
theorem Passes.refl (h : Keeps m child) : Passes m child m child :=
  ⟨h, rfl, rfl, id, .inl, id, id⟩

/-- A step that concerns the child alone leaves the manager as it was. The child may change but for
its signals and for the notice of its exit, which are the business of others. -/
theorem Keeps.update (h : Keeps m child) (number : Nat) {f : Child → Child}
    (hsignals : (f child).signals = child.signals)
    (hexited : child.exited = true → (f child).exited = true)
    (hreaped : (f child).reaped = child.reaped) :
    ∃ child', Passes m child (m.update number f) child' := by
  rw [update_of_only h.only]
  by_cases hnumber : number = 0
  · rw [if_pos hnumber]
    refine ⟨f child, ⟨rfl, fun hnow => ?_⟩, hsignals, rfl, id, .inl, hexited, fun hbefore => ?_⟩
    · exact hexited (h.noticed (hreaped ▸ hnow))
    · exact hreaped.trans hbefore
  · -- It is the only child, so a step for another number concerns none.
    rw [if_neg hnumber]
    exact ⟨child, ⟨rfl, h.noticed⟩, rfl, rfl, id, .inl, id, id⟩

/-- The exit of the child is noticed once it has happened. Then the manager takes the child for
stopped, and rightly so, since it has no other one. -/
theorem Keeps.reap (h : Keeps m child) (number : Nat) :
    ∃ child', Passes m child (m.reap number) child' ∧
      (number = 0 → child.exited = true → child'.reaped = true) := by
  unfold Manager.reap
  rw [h.only]
  cases number with
  | succ number => exact ⟨child, .refl h, nofun⟩
  | zero =>
    dsimp only [List.getElem?_cons_zero]
    split
    · rename_i hexit
      -- The exit is there to be noticed.
      rw [update_of_only h.only, if_pos rfl]
      refine ⟨{ child with reaped := true }, ⟨⟨rfl, fun _ => hexit.1⟩, rfl, rfl, fun _ => rfl,
        fun _ => .inr rfl, id, fun _ => rfl⟩, fun _ _ => rfl⟩
    · rename_i hnot
      -- Nothing happens: there is no exit, or it was noticed before.
      refine ⟨child, .refl h, fun _ hexited => ?_⟩
      cases hreaped : child.reaped with
      | true => rfl
      | false => exact absurd ⟨hexited, by rw [hreaped]; exact Bool.false_ne_true⟩ hnot

/-- What happens by itself leaves the manager with its child, and shows that nobody but the owner
sends signals. The last two parts say that an exit happens and is noticed when its event comes,
which is what a waiting owner relies on. -/
theorem Keeps.step (h : Keeps m child) {e : Event} (hambient : e.isAmbient = true) :
    ∃ child', Passes m child (m.step e) child' ∧
      (e = .exit 0 → child'.exited = true) ∧
      (e = .reap 0 → child.exited = true → child'.reaped = true) := by
  cases e with
  | exit number =>
    obtain ⟨child', hpasses⟩ :=
      h.update number (f := fun c => { c with exited := true }) rfl (fun _ => rfl) rfl
    refine ⟨child', hpasses, fun hzero => ?_, nofun⟩
    -- There is one child, and it is the one that has exited.
    obtain rfl := Event.exit.inj hzero
    have honly : [{ child with exited := true }] = [child'] := by
      rw [← hpasses.keeps.only, update_of_only h.only, if_pos rfl]
    obtain rfl := List.head_eq_of_cons_eq honly
    rfl
  | reap number =>
    obtain ⟨child', hpasses, hnoticed⟩ := h.reap number
    exact ⟨child', hpasses, nofun, fun hzero => hnoticed (Event.reap.inj hzero)⟩
  | errorBytes number bytes =>
    obtain ⟨child', hpasses⟩ :=
      h.update number (f := fun c => { c with monitor := c.monitor.feed bytes }) rfl id rfl
    exact ⟨child', hpasses, nofun, nofun⟩
  | errorEnd number =>
    obtain ⟨child', hpasses⟩ :=
      h.update number (f := fun c => { c with monitor := c.monitor.finish }) rfl id rfl
    exact ⟨child', hpasses, nofun, nofun⟩
  | onErrorLine | start | claim | kill | beginStop | proceed | overdue => exact nomatch hambient

/-! ### Three ways to be with a child -/

/-- Nothing has been sent to the child. -/
structure Spares (m : Manager) (child : Child) : Prop extends Keeps m child where
  signals : child.signals = []
  stopping : m.stopping = false
  /-- The child counts as running until its exit is noticed. -/
  gone : m.isRunning = false → child.reaped = true

/-- The child was sent the signal of a mode, and then perhaps killed; the manager waits for
its exit. -/
structure Awaits (m : Manager) (mode : StopMode) (child : Child) : Prop extends Keeps m child where
  signals : ∃ kills, child.signals = mode.signal :: List.replicate kills .kill
  stopping : m.stopping = true

/-- The manager is done with the child. -/
structure Leaves (m : Manager) (child : Child) : Prop extends Keeps m child where
  running : m.isRunning = false

/-- A child to which nothing was sent is in that way still, whatever happens by itself. -/
theorem Spares.passes (h : Spares m child) (hp : Passes m child after child') :
    Spares after child' := by
  refine ⟨hp.keeps, hp.signals.trans h.signals, hp.stopping.trans h.stopping, fun hgone => ?_⟩
  -- It stopped counting as running before, or it does now; an exit was noticed either way.
  rcases hp.gone hgone with hbefore | hnow
  · exact hp.reaped (h.gone hbefore)
  · exact hnow

/-- A manager that waits for an exit goes on waiting, even when the exit happens: it looks at it
when it proceeds. -/
theorem Awaits.passes {mode : StopMode} (h : Awaits m mode child)
    (hp : Passes m child after child') : Awaits after mode child' := by
  obtain ⟨kills, hsignals⟩ := h.signals
  exact ⟨hp.keeps, ⟨kills, hp.signals.trans hsignals⟩, hp.stopping.trans h.stopping⟩

/-- A manager that is done with a child stays so. -/
theorem Leaves.passes (h : Leaves m child) (hp : Passes m child after child') :
    Leaves after child' := ⟨hp.keeps, hp.running h.running⟩

/-- A manager that has just started its first child has not sent anything to it. The child is the
only one of the manager, so the claim of a session is on that child, and the session finds it spared
when it spawns its server. -/
theorem spares_of_claim (hnone : m.children = []) (hidle : m.stopping = false)
    {verdict : Except SystemError Nat} {stream : Stream}
    (h : (m.start verdict).bind Manager.claim = .ok (stream, after)) :
    ∃ child, Spares after child := by
  unfold Manager.start at h
  split at h
  · exact nomatch h
  cases verdict with
  | error cause => exact nomatch h
  | ok pid =>
    -- The claim takes the stream and leaves the child, which is the first one.
    obtain rfl := (Prod.mk.inj (Except.ok.inj h)).2
    refine ⟨{ pid, monitor := { reports := m.reports } }, ⟨?_, nofun⟩, rfl, hidle, nofun⟩
    show m.children ++ _ = _
    rw [hnone]
    rfl

/-! ### How a child ends -/

/-- How a child has ended whose manager is done with it. `told` is whether it has been told
to exit in words. -/
inductive Fate (told : Prop) (child : Child) : Prop where
  /-- It has exited by itself, before anything was sent to it. -/
  | alone (signals : child.signals = []) (exited : child.exited = true)
  /-- It was asked to terminate and has exited; one that lingers is killed. -/
  | asked (told : told) (kills : Nat)
      (signals : child.signals = .terminate :: List.replicate kills .kill)
      (exited : child.exited = true)
  | killed (untold : ¬ told) (kills : Nat)
      (signals : child.signals = .kill :: List.replicate kills .kill)

/-- The fate of a child is not changed by what happens later: no more signals are sent, and an exit
is final. -/
theorem Fate.passes {told : Prop} (h : Fate told child) (hp : Passes m child after child') :
    Fate told child' := by
  cases h with
  | alone signals exited => exact .alone (hp.signals.trans signals) (hp.exited exited)
  | asked told kills signals exited =>
    exact .asked told kills (hp.signals.trans signals) (hp.exited exited)
  | killed untold kills signals => exact .killed untold kills (hp.signals.trans signals)

/-- A child that does not count as running any more has exited by itself. Nothing was sent to it, so
its fate is settled whether or not it was told to exit. -/
theorem Spares.fate (h : Spares m child) (hgone : m.isRunning = false) (told : Prop) :
    Leaves m child ∧ Fate told child ∧ child.exited = true := by
  have hexited := h.noticed (h.gone hgone)
  exact ⟨⟨h.toKeeps, hgone⟩, .alone h.signals hexited, hexited⟩

/-- A manager that is dropped kills a child that runs. The hypothesis is that it was not told to
exit: a session tells it and then stops it, and does not drop it in between. -/
theorem Spares.drop (h : Spares m child) {told : Prop} (huntold : ¬ told) :
    ∃ child', Leaves m.drop child' ∧ Fate told child' := by
  unfold Manager.drop Manager.kill
  cases hrunning : m.isRunning with
  | false =>
    -- The child has exited by itself, and is left alone.
    obtain ⟨-, hfate, -⟩ := h.fate hrunning told
    exact ⟨child, ⟨⟨h.only, h.noticed⟩, hrunning⟩, hfate⟩
  | true =>
    -- The kill is the first signal and the last one.
    rw [if_pos rfl, Manager.signal, updateCurrent_of_only h.only, Manager.stopMonitor,
      updateCurrent_of_only rfl]
    refine ⟨_, ⟨⟨rfl, h.noticed⟩, rfl⟩, .killed huntold 0 ?_⟩
    show child.signals ++ [Signal.kill] = _
    rw [h.signals]
    rfl

/-- Stopping a child begins with the signal of the mode: to terminate for one that was told to exit,
to be killed for another. -/
theorem Spares.beginStop (h : Spares m child) (hrunning : m.isRunning = true) (mode : StopMode) :
    ∃ after child', m.beginStop mode = .ok after ∧ Awaits after mode child' := by
  unfold Manager.beginStop
  rw [if_pos hrunning, Manager.signal, updateCurrent_of_only h.only]
  refine ⟨_, _, rfl, ⟨rfl, h.noticed⟩, ⟨0, ?_⟩, rfl⟩
  show child.signals ++ [mode.signal] = _
  rw [h.signals]
  rfl

/-- A child that lingers is killed. The manager goes on waiting, and may kill it again. -/
theorem Awaits.overdue {mode : StopMode} (h : Awaits m mode child) :
    ∃ child', Awaits m.overdue mode child' ∧ child'.exited = child.exited ∧
      child'.reaped = child.reaped := by
  obtain ⟨kills, hsignals⟩ := h.signals
  unfold Manager.overdue
  rw [if_pos h.stopping, Manager.signal, updateCurrent_of_only h.only]
  refine ⟨_, ⟨⟨rfl, h.noticed⟩, ⟨kills + 1, ?_⟩, h.stopping⟩, rfl, rfl⟩
  show child.signals ++ [Signal.kill] = _
  rw [hsignals, List.cons_append, ← List.replicate_succ']

/-- Stopping ends when the exit of the child is noticed, and not before. The fate is then the one
that the mode has, which is gentle exactly for a child that was told to exit. -/
theorem Awaits.proceed {mode : StopMode} (h : Awaits m mode child) {told : Prop}
    (hmode : mode = .graceful ↔ told) :
    (child.reaped = false ∧ m.proceed = (false, m)) ∨
      ∃ after child', m.proceed = (true, after) ∧ Leaves after child' ∧ Fate told child' ∧
        child'.exited = true := by
  have hcurrent : m.current? = some child := by
    rw [Manager.current?, h.only]
    rfl
  unfold Manager.proceed
  rw [hcurrent, Option.all_some]
  cases hreaped : child.reaped with
  -- The exit has not been noticed yet, so the manager waits on.
  | false => exact .inl ⟨rfl, if_neg fun hboth => Bool.false_ne_true hboth.2⟩
  | true =>
    rw [if_pos ⟨h.stopping, rfl⟩, Manager.stopMonitor, updateCurrent_of_only h.only]
    have hexited := h.noticed hreaped
    obtain ⟨kills, hsignals⟩ := h.signals
    refine .inr ⟨_, _, rfl, ⟨⟨rfl, h.noticed⟩, rfl⟩, ?_, hexited⟩
    cases mode with
    | graceful => exact .asked (hmode.mp rfl) kills hsignals hexited
    | force => exact .killed (fun htold => nomatch hmode.mpr htold) kills hsignals

end LanguageClient.ChildProcess
