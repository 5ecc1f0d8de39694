import LanguageClient.Extension.Run
import LanguageClient.Proofs.Session.Conclusion

/-!
# `LanguageClient.Proofs.Extension.Leaving`: how an activation fails or ends

An activation goes on until its editor is refused or it is deactivated. From then on its
session has been stopped, and the activation waits for the session only
(`Stage.leaving?`). So what holds of sessions carries over: whatever the server does and
whatever others do, nothing can hold up the end (`Life.Waits.isOver_run`).

* `Attended`: the session of an activation is one that is started once, and stopped when
  the activation does not go on.
* `attended_run`: it is so at every moment.
-/

set_option autoImplicit false

namespace LanguageClient.Extension

open Editor (workspaceEditor)
open Session (ran Stopping)

variable {config : Config} {processId : Nat} {stage : Stage} {l : Life} {s : Session}

/-! ### Stages -/

namespace Stage

/-- Whether an activation has neither failed nor been deactivated. -/
def isGoing : Stage → Bool
  | .starting _ | .active _ => true
  | .failing _ _ | .failed _ _ | .ending _ | .ended _ => false

/-- Whether an activation has come to its end. -/
def isOver : Stage → Bool
  | .failed _ _ | .ended _ => true
  | .starting _ | .active _ | .failing _ _ | .ending _ => false

/-- Why an activation fails. -/
def cause? : Stage → Option Failure
  | .failing cause _ | .failed cause _ => some cause
  | .starting _ | .active _ | .ending _ | .ended _ => none

/-- The session that an activation waits for. -/
def leaving? : Stage → Option Session
  | .failing _ s => some s
  | .ending x => some x.session
  | .starting _ | .active _ | .failed _ _ | .ended _ => none

/-- A stage goes on with its session, and keeps its kind. -/
@[simp] theorem session_step (stage : Stage) (e : Session.Event) :
    (stage.step e).session = stage.session.step e := by cases stage <;> rfl

/-- What the session does leaves what is kept alone. -/
@[simp] theorem kept_step (stage : Stage) (e : Session.Event) :
    (stage.step e).kept = stage.kept := by cases stage <;> rfl

/-- An activation is not ended by its session. -/
@[simp] theorem isGoing_step (stage : Stage) (e : Session.Event) :
    (stage.step e).isGoing = stage.isGoing := by cases stage <;> rfl

/-- An activation is not over by a step of its session alone; it has to go on itself. -/
@[simp] theorem isOver_step (stage : Stage) (e : Session.Event) :
    (stage.step e).isOver = stage.isOver := by cases stage <;> rfl

/-- Why an activation fails was decided when its editor was refused. -/
@[simp] theorem cause?_step (stage : Stage) (e : Session.Event) :
    (stage.step e).cause? = stage.cause? := by cases stage <;> rfl

/-- An activation that waits for its session waits for it after the step. -/
@[simp] theorem leaving?_step (stage : Stage) (e : Session.Event) :
    (stage.step e).leaving? = stage.leaving?.map (Session.step · e) := by cases stage <;> rfl

/-- Only an activation that fails or ends waits for its session. -/
theorem session_of_leaving (h : stage.leaving? = some s) :
    stage.session = s ∧ stage.isGoing = false := by
  cases stage with
  | failing cause s' => exact ⟨Option.some.inj h, rfl⟩
  | ending x => exact ⟨Option.some.inj h, rfl⟩
  | starting | active | failed | ended => cases h

/-- An activation that is over does not go on. -/
theorem isGoing_of_isOver (h : stage.isOver = true) : stage.isGoing = false := by
  cases stage with
  | failed | ended | failing | ending => rfl
  | starting | active => cases h

/-- The session of an activation is stopped by the activation only. So no stop comes among what is
admitted. -/
theorem ne_stop_of_admits {e : Session.Event} (h : stage.admits e = true) : e ≠ .stop := by
  rintro rfl
  cases stage <;> cases h

/-- What a session waits for is not up to its owner, so it is admitted at every stage. -/
theorem admits_of_awaits {e : Session.Event} (h : s.awaits e = true) : stage.admits e = true := by
  have hdue : e.isDue = true := by
    rw [← Bool.not_eq_false]
    intro hnot
    exact nomatch h.symm.trans (Session.awaits_of_not_isDue hnot)
  cases e with
  | resume | expire | child => cases stage <;> rfl
  | start | openDocument | closeDocument | stop | dialed | spawned | ambient => cases hdue

end Stage

/-! ### Registering the editor -/

/-- The workspace editor is refused only if its view type is taken: its own fields are good ones. -/
theorem register_workspaceEditor (r : Editor.Registry) :
    r.register workspaceEditor =
      if r.isRegistered workspaceEditor.viewType then
        .error (.duplicateViewType workspaceEditor.viewType)
      else .ok (r.registrations.length,
        { editors := Editor.Registry.insert workspaceEditor r.editors
          registrations := r.registrations ++ [⟨workspaceEditor.viewType, false⟩] }) :=
  if_neg (by decide +kernel)

/-- The editor is refused if its view type is taken, and the session is stopped. The host stays as
it was. -/
theorem equip_of_registered {host : Host}
    (h : host.registry.isRegistered workspaceEditor.viewType = true) (s : Session) :
    equip s host =
      (.failed (.registration (.duplicateViewType workspaceEditor.viewType)) s.stop, host) := by
  unfold equip Editor.Subscriptions.registerWorkspace
  rw [register_workspaceEditor, if_pos h]
  rfl

/-- If its view type is free, the editor is registered, and its handle is all that is kept. The
handle is the next one of the registry, which is what tells the registration of this activation from
those of others. -/
theorem equip_of_free {host : Host}
    (h : host.registry.isRegistered workspaceEditor.viewType = false) (s : Session) :
    ∃ registry,
      host.registry.register workspaceEditor = .ok (host.registry.registrations.length, registry) ∧
      equip s host =
        (.active ⟨s, { kept := [.registration host.registry.registrations.length] }⟩,
          { host with registry }) := by
  unfold equip Editor.Subscriptions.registerWorkspace
  rw [register_workspaceEditor, if_neg (Bool.eq_false_iff.mp h)]
  exact ⟨_, rfl, rfl⟩

/-- An activation that starts goes on by registering its editor. -/
theorem proceed_starting (host : Host) (s : Session) :
    (Life.mk host (.starting s)).proceed = .after (equip s host) := rfl

/-- An activation that fails is over once its session has stopped. -/
theorem proceed_failing (host : Host) (cause : Failure) (s : Session) :
    (Life.mk host (.failing cause s)).proceed =
      if s.hasStopped then ⟨host, .failed cause s⟩ else ⟨host, .failing cause s⟩ := rfl

/-- What is registered is released once the session has stopped. -/
theorem proceed_ending (host : Host) (x : Extension) :
    (Life.mk host (.ending x)).proceed =
      if x.session.hasStopped then
        ⟨{ host with registry := (x.subscriptions.disposeAll host.registry).2 },
          .ended { x with subscriptions := (x.subscriptions.disposeAll host.registry).1 }⟩
      else ⟨host, .ending x⟩ := by
  unfold Life.proceed finish
  dsimp only
  split <;> rfl

/-! ### The session -/

/-- What is known of the session of an activation. -/
structure Attended (config : Config) (processId : Nat) (stage : Stage) : Prop where
  /-- It has been started, and it has been stopped unless the activation goes on. -/
  traced : ∃ steps, stage.session = ran config processId (.start :: steps) ∧
    (.stop ∈ steps ↔ stage.isGoing = false)
  hasStopped : stage.isOver = true → stage.session.hasStopped = true
  cause : ∀ cause, stage.cause? = some cause →
    cause = .registration (.duplicateViewType workspaceEditor.viewType)

/-- An activation begins with a session that has just been started. -/
theorem attended_begin (host : Host) (config : Config) (processId : Nat) :
    Attended config processId (Life.begin host config processId).stage where
  traced := ⟨[], rfl, nofun, nofun⟩
  hasStopped := nofun
  cause := nofun

/-- As long as an activation goes on, its session has not been stopped. Nobody else could stop
it. -/
theorem Attended.phase (h : Attended config processId stage) (hgoing : stage.isGoing = true) :
    stage.session.phase ≠ .stopped := by
  obtain ⟨steps, hran, hstop⟩ := h.traced
  intro hphase
  rw [hran] at hphase
  have hmem := (Session.shown_run config processId (.start :: steps)).isStopped hphase
  rcases List.mem_cons.mp hmem with heq | hmem
  · exact nomatch heq
  · exact nomatch hgoing.symm.trans (hstop.mp hmem)

/-- An activation that does not go on has a session that has been stopped, so all that holds of such
sessions holds of it. -/
theorem Attended.stopping (h : Attended config processId stage) (hgoing : stage.isGoing = false) :
    Stopping 5 stage.session := by
  obtain ⟨steps, hran, hstop⟩ := h.traced
  obtain ⟨before, after, rfl⟩ := List.append_of_mem (hstop.mpr hgoing)
  rw [hran]
  exact (Session.stopping_run config processId (.start :: before) after).1

/-- A stop of the session is one step more. The activation asks for it at a moment when it still
goes on, so the request is not put off. -/
theorem Attended.stop (h : Attended config processId stage) (hgoing : stage.isGoing = true) :
    ∃ steps, stage.session.stop = ran config processId (.start :: steps) ∧ .stop ∈ steps := by
  have hphase := h.phase hgoing
  obtain ⟨steps, hran, -⟩ := h.traced
  rw [hran] at hphase ⊢
  refine ⟨steps ++ [.stop], ?_, List.mem_append_right _ List.mem_cons_self⟩
  rw [← List.cons_append, Session.ran_concat, (Session.kept_of_phase hphase).step_stop]

/-- Once an activation does not go on, its item has been hidden and disposed of, and that once. -/
theorem Attended.item (h : Attended config processId stage) (hgoing : stage.isGoing = false) :
    ∃ shown, stage.session.indicator.calls = shown ++ [.hide, .dispose] ∧
      .hide ∉ shown ∧ .dispose ∉ shown := by
  have hphase := (h.stopping hgoing).phase
  obtain ⟨steps, hran, -⟩ := h.traced
  rw [hran] at hphase ⊢
  exact Session.item_of_stopped hphase

/-- When an activation is over, its session has nothing left open. -/
theorem Attended.clean (h : Attended config processId stage) (hover : stage.isOver = true) :
    Session.Clean stage.session := by
  have hstopping := h.stopping (Stage.isGoing_of_isOver hover)
  have hended := h.hasStopped hover
  obtain ⟨steps, hran, -⟩ := h.traced
  rw [hran] at hstopping hended ⊢
  exact hstopping.clean hended (Session.hasAnswer_of_told (Session.standing_run config processId _))

/-! ### Steps -/

/-- A stage with the same session, which goes on or does not as before. This covers the steps in
which an activation comes to its end. -/
theorem Attended.congr {after : Stage} (h : Attended config processId stage)
    (hsession : after.session = stage.session) (hgoing : after.isGoing = stage.isGoing)
    (hover : after.isOver = true → stage.session.hasStopped = true)
    (hcause : ∀ cause, after.cause? = some cause → stage.cause? = some cause) :
    Attended config processId after where
  traced := by
    rw [hsession, hgoing]
    exact h.traced
  hasStopped hnow := hsession ▸ hover hnow
  cause cause hnow := h.cause cause (hcause cause hnow)

/-- A step of the session, if it is admitted, is one step more of the same run. It is no stop, so
what was said of stops remains true. -/
theorem Attended.stepSession (h : Attended config processId stage) {e : Session.Event}
    (hadmits : stage.admits e = true) : Attended config processId (stage.step e) where
  traced := by
    obtain ⟨steps, hran, hstop⟩ := h.traced
    refine ⟨steps ++ [e], ?_, ?_⟩
    · rw [Stage.session_step, hran, ← Session.ran_concat, List.cons_append]
    · have hother : ¬ .stop = e := (Stage.ne_stop_of_admits hadmits).symm
      rw [Stage.isGoing_step, List.mem_append, List.mem_singleton, or_iff_left hother, hstop]
  hasStopped hover := by
    -- Nothing is due any more, and so it remains.
    rw [Stage.isOver_step] at hover
    have hdone := (h.stopping (Stage.isGoing_of_isOver hover)).of_hasStopped (h.hasStopped hover)
    rw [Stage.session_step]
    exact (hdone.step (.inl rfl)).1.hasStopped
  cause cause hcause := by
    rw [Stage.cause?_step] at hcause
    exact h.cause cause hcause

/-- Going on keeps the session in the care of the activation. It is stopped when the editor is
refused, and at no other moment here. -/
theorem Attended.proceed (h : Attended config processId l.stage) :
    Attended config processId l.proceed.stage := by
  obtain ⟨host, stage⟩ := l
  cases stage with
  | starting s =>
    rw [proceed_starting]
    cases htaken : host.registry.isRegistered workspaceEditor.viewType with
    | true =>
      -- The session is asked to stop in the same step.
      rw [equip_of_registered htaken]
      obtain ⟨steps, hran, hstop⟩ := h.stop rfl
      refine ⟨⟨steps, hran, fun _ => rfl, fun _ => hstop⟩, nofun, ?_⟩
      rintro cause ⟨⟩
      rfl
    | false =>
      -- The editor is registered, and the session goes on as before.
      obtain ⟨registry, -, hequip⟩ := equip_of_free htaken s
      rw [hequip]
      exact h.congr rfl rfl nofun nofun
  | failing cause s =>
    rw [proceed_failing]
    split
    · rename_i hstopped
      exact h.congr rfl rfl (fun _ => hstopped) fun _ => id
    · exact h
  | ending x =>
    -- The activation is over as soon as its session has stopped. Before that it waits.
    rw [proceed_ending]
    split
    · rename_i hstopped
      exact h.congr rfl rfl (fun _ => hstopped) fun _ => id
    · exact h
  | active x => exact h
  | failed cause s => exact h
  | ended x => exact h

/-- Deactivating stops the session of an activation that is active, and does nothing to any
other. -/
theorem Attended.deactivate (h : Attended config processId l.stage) :
    Attended config processId l.deactivate.stage := by
  obtain ⟨host, stage⟩ := l
  cases stage with
  | active x =>
    obtain ⟨steps, hran, hstop⟩ := h.stop rfl
    exact ⟨⟨steps, hran, fun _ => rfl, fun _ => hstop⟩, nofun, nofun⟩
  | starting s => exact h
  | failing cause s => exact h
  | failed cause s => exact h
  | ending x => exact h
  | ended x => exact h

/-- What others do with the registry leaves the activation alone. -/
theorem Life.stage_use (l : Life) (u : Use) : (l.step (.use u)).stage = l.stage := by
  unfold Life.step
  dsimp only
  split <;> rfl

/-- Every event keeps the session in the care of the activation. An event of the session that only
its owner may cause is not admitted, so it does nothing. -/
theorem Attended.step (h : Attended config processId l.stage) (e : Event) :
    Attended config processId (l.step e).stage := by
  cases e with
  | session e =>
    unfold Life.step
    dsimp only
    split
    · rename_i hadmits
      exact h.stepSession hadmits
    · exact h
  | proceed => exact h.proceed
  | deactivate => exact h.deactivate
  | use u =>
    rw [Life.stage_use]
    exact h

/-- What is known of the session of an activation at every moment, whatever the server and others
do. -/
theorem attended_run (host : Host) (config : Config) (processId : Nat) (events : List Event) :
    Attended config processId ((Life.begin host config processId).run events).stage := by
  unfold Life.run
  exact List.foldlRecOn (motive := fun l => Attended config processId l.stage) events Life.step
    (attended_begin host config processId) fun _ h e _ => h.step e

/-! ### The end -/

namespace Life

/-- Whether an activation that fails or ends waits for an event. -/
def awaits (l : Life) (e : Event) : Bool :=
  l.stage.leaving?.any fun s =>
    match e with
    | .session e => s.awaits e
    | .proceed => s.hasStopped
    | .deactivate | .use _ => false

/-- How often it happens in a run that an activation waits for an event. -/
def granted (l : Life) : List Event → Nat
  | [] => 0
  | e :: events => (if l.awaits e then 1 else 0) + (l.step e).granted events

/-- While an activation waits for its session, it waits for what that waits for. -/
theorem awaits_session (hleaving : l.stage.leaving? = some s) (e : Session.Event) :
    l.awaits (.session e) = s.awaits e := by
  rw [awaits, hleaving]
  rfl

/-- When the session has stopped, only going on is left to wait for. -/
theorem awaits_proceed (hleaving : l.stage.leaving? = some s) :
    l.awaits .proceed = s.hasStopped := by
  rw [awaits, hleaving]
  rfl

/-- As long as an activation fails or ends there is something that it waits for: an event of its
session, or that it goes on itself. -/
theorem exists_awaits (h : Attended config processId l.stage) (hleaving : l.stage.leaving? = some s) :
    ∃ e, l.awaits e = true := by
  obtain ⟨rfl, hgoing⟩ := Stage.session_of_leaving hleaving
  cases hstopped : l.stage.session.hasStopped with
  | true => exact ⟨.proceed, (awaits_proceed hleaving).trans hstopped⟩
  | false =>
    obtain ⟨e, hawaits⟩ := (h.stopping hgoing).exists_awaits hstopped
    exact ⟨.session e, (awaits_session hleaving e).trans hawaits⟩

/-- An activation that has come to its end stays there, with the same cause if it failed. So the
outcome that its owner sees first is the outcome of the whole run. -/
theorem step_of_isOver (hover : l.stage.isOver = true) (e : Event) :
    (l.step e).stage.isOver = true ∧ (l.step e).stage.cause? = l.stage.cause? := by
  cases e with
  | session e =>
    -- Its session may still be told of something, but its stage does not change by that.
    unfold step
    dsimp only
    split
    · rw [Stage.isOver_step, Stage.cause?_step]
      exact ⟨hover, rfl⟩
    · exact ⟨hover, rfl⟩
  | proceed =>
    obtain ⟨host, stage⟩ := l
    cases stage with
    | failed | ended => exact ⟨rfl, rfl⟩
    | starting | active | failing | ending => cases hover
  | deactivate =>
    obtain ⟨host, stage⟩ := l
    cases stage with
    | failed | ended => exact ⟨rfl, rfl⟩
    | starting | active | failing | ending => cases hover
  | use u =>
    rw [stage_use]
    exact ⟨hover, rfl⟩

/-- An activation that has come to its end stays there for the rest of a run, with the same cause if
it failed. -/
theorem run_of_isOver (hover : l.stage.isOver = true) (events : List Event) :
    (l.run events).stage.isOver = true ∧ (l.run events).stage.cause? = l.stage.cause? := by
  induction events generalizing l with
  | nil => exact ⟨hover, rfl⟩
  | cons e events ih =>
    obtain ⟨hnext, hsame⟩ := step_of_isOver hover e
    obtain ⟨hlast, hrest⟩ := ih hnext
    exact ⟨hlast, hrest.trans hsame⟩

/-- If the session has stopped, an activation that goes on comes to its end, whether it fails or was
deactivated. -/
theorem proceed_of_hasStopped (hleaving : l.stage.leaving? = some s)
    (hstopped : s.hasStopped = true) :
    l.proceed.stage.isOver = true ∧ l.proceed.stage.cause? = l.stage.cause? := by
  obtain ⟨host, stage⟩ := l
  cases stage with
  | failing cause s' =>
    obtain rfl := Option.some.inj hleaving
    rw [proceed_failing, if_pos hstopped]
    exact ⟨rfl, rfl⟩
  | ending x =>
    obtain rfl := Option.some.inj hleaving
    rw [proceed_ending, if_pos hstopped]
    exact ⟨rfl, rfl⟩
  | starting | active | failed | ended => cases hleaving

/-- If the session has not stopped yet, it waits: what is registered is not released before that.
This holds of both ways to leave, by a failure and by a deactivation. -/
theorem proceed_of_not_hasStopped (hleaving : l.stage.leaving? = some s)
    (hstopped : s.hasStopped = false) : l.proceed = l := by
  obtain ⟨host, stage⟩ := l
  have hnot := Bool.eq_false_iff.mp hstopped
  cases stage with
  | failing cause s' =>
    obtain rfl := Option.some.inj hleaving
    rw [proceed_failing, if_neg hnot]
  | ending x =>
    obtain rfl := Option.some.inj hleaving
    rw [proceed_ending, if_neg hnot]
  | starting | active | failed | ended => cases hleaving

/-- Deactivating once more does nothing, and neither does it while the activation fails. -/
theorem deactivate_of_leaving (hleaving : l.stage.leaving? = some s) : l.deactivate = l := by
  obtain ⟨host, stage⟩ := l
  cases stage with
  | active => cases hleaving
  | starting | failing | failed | ending | ended => rfl

/-- An activation waits for its session, which has so much to wait for at most. -/
def Waits (rest : Nat) (l : Life) : Prop :=
  ∃ s, l.stage.leaving? = some s ∧ Stopping rest s

/-- After each event an activation that waits is over, or it waits on: as long as before, or for one
thing less if it has waited for the event. Only two events matter. A step of the session spends what
the session has to wait for, and going on ends the activation as soon as the session has stopped. -/
theorem Waits.step {rest : Nat} (h : l.Waits rest) (e : Event) :
    ((l.step e).stage.isOver = true ∨
        ∃ rest', (l.step e).Waits rest' ∧ (if l.awaits e then 1 else 0) + rest' = rest) ∧
      (l.step e).stage.cause? = l.stage.cause? := by
  obtain ⟨s, hleaving, hstopping⟩ := h
  -- An event that changes no stage and is not waited for leaves everything as it is.
  have still : (l.step e).stage = l.stage → l.awaits e = false →
      (∃ rest', (l.step e).Waits rest' ∧ (if l.awaits e then 1 else 0) + rest' = rest) ∧
        (l.step e).stage.cause? = l.stage.cause? := by
    intro hsame hother
    unfold Waits
    rw [hsame, hother]
    exact ⟨⟨rest, ⟨s, hleaving, hstopping⟩, Nat.zero_add rest⟩, rfl⟩
  cases e with
  | session e =>
    -- What the activation waits for here is what its session waits for, so that the count of the
    -- session (`Stopping.step`) is the one to go by.
    have hawaits := awaits_session hleaving e
    by_cases hadmits : l.stage.admits e = true
    · have hstep : (l.step (.session e)).stage = l.stage.step e := by
        rw [Life.step, if_pos hadmits]
      have hnext : (l.step (.session e)).stage.leaving? = some (s.step e) := by
        rw [hstep, Stage.leaving?_step, hleaving]
        rfl
      rw [hawaits, hstep, Stage.cause?_step]
      refine ⟨.inr ?_, rfl⟩
      by_cases hdue : s.awaits e = true
      · rw [if_pos hdue]
        cases rest with
        | zero =>
          -- A session with nothing left to wait for does not wait.
          exact nomatch hdue.symm.trans (hstopping.awaits_eq_false e)
        | succ rest =>
          have hless := (hstopping.step (.inr ⟨rfl, hdue⟩)).1
          exact ⟨rest, ⟨_, hnext, hless⟩, Nat.add_comm 1 rest⟩
      · -- The session has not waited for this. It takes the step and has as much to wait for as
        -- before.
        rw [if_neg hdue]
        exact ⟨rest, ⟨_, hnext, (hstopping.step (.inl rfl)).1⟩, Nat.zero_add rest⟩
    · -- The event is not admitted, because only the owner of the session may cause it. No session
      -- waits for such an event, so nothing is lost by leaving it out.
      have hother : l.awaits (.session e) = false := by
        rw [hawaits, ← Bool.not_eq_true]
        exact fun hdue => hadmits (Stage.admits_of_awaits hdue)
      exact (still (by rw [Life.step, if_neg hadmits]) hother).imp_left .inr
  | proceed =>
    -- Going on is the last thing to wait for: before the session has stopped nothing comes of it,
    -- and afterwards it is the end.
    cases hstopped : s.hasStopped with
    | true =>
      obtain ⟨hover, hcause⟩ := proceed_of_hasStopped hleaving hstopped
      exact ⟨.inl hover, hcause⟩
    | false =>
      have hsame := congrArg stage (proceed_of_not_hasStopped hleaving hstopped)
      exact (still hsame ((awaits_proceed hleaving).trans hstopped)).imp_left .inr
  | deactivate =>
    -- The activation has been deactivated before, or it fails. Nobody waits for another request.
    have hother : l.awaits .deactivate = false := by
      rw [awaits, hleaving]
      rfl
    exact (still (congrArg stage (deactivate_of_leaving hleaving)) hother).imp_left .inr
  | use u =>
    -- Others use the registry, and the activation does not wait for them.
    have hother : l.awaits (.use u) = false := by
      rw [awaits, hleaving]
      rfl
    exact (still (stage_use l u) hother).imp_left .inr

/-- An activation that waits is over once what it waits for has happened often enough, whatever
happens in between: all that its session waits for, and that it goes on itself. -/
theorem Waits.isOver_run {rest : Nat} (h : l.Waits rest) {events : List Event}
    (hgranted : rest + 1 ≤ l.granted events) :
    (l.run events).stage.isOver = true ∧ (l.run events).stage.cause? = l.stage.cause? := by
  -- On the events, from the first one on: each leaves the activation over, or waiting for
  -- no more than before.
  induction events generalizing l rest with
  | nil => exact absurd hgranted (Nat.not_succ_le_zero rest)
  | cons e events ih =>
    rw [granted] at hgranted
    obtain ⟨hover | ⟨rest', hnext, hless⟩, hcause⟩ := h.step e
    · obtain ⟨hlast, hsame⟩ := run_of_isOver hover events
      exact ⟨hlast, hsame.trans hcause⟩
    · obtain ⟨hlast, hsame⟩ := ih hnext (by omega)
      exact ⟨hlast, hsame.trans hcause⟩

end Life

end LanguageClient.Extension
