import LanguageClient.Config.Builder
import LanguageClient.Proofs.Config.Transport
import Mathlib.Data.List.Induction

/-!
# `LanguageClient.Proofs.Config.Builder`: what settings come to

A setting says something about a few of the seven things that a configuration is made from. What
counts in the end is what is said last about each of them (`lastOf`), and of arguments all that
is said. So a list of settings can be read without going through the builder: `Outcome` lists the
ways in which building can end, each with the settings that lead to it, the first fault in the
order of the checks before the others.

* `Builder.apply_eq`, `Builder.ofSettings_eq`: what one setting does, and what a list does.
* `outcome_build`, `build_of_outcome`: building ends in one of these ways, and only one of them is
  open to it.
* `specified`: the two as an equivalence, and what holds of every configuration that is built.
-/

set_option autoImplicit false

namespace LanguageClient.Config

open Text

/-! ### What a setting says -/

namespace Setting

/-- The command that a setting gives. -/
def command? : Setting → Option String
  | .spawn command | .transport (.spawn command _ _) => some command
  | _ => none

/-- The address that a setting gives. -/
def address? : Setting → Option Address
  | .dial address | .transport (.dial address) => some address
  | _ => none

/-- The arguments that a setting adds. -/
def arguments : Setting → List String
  | .argument value => [value]
  | .transport (.spawn _ arguments _) => arguments
  | _ => []

/-- The working directory that a setting gives. A transport may leave it open. -/
def directory? : Setting → Option Path
  | .directory path => some path
  | .transport (.spawn _ _ path?) => path?
  | _ => none

/-- The selector that a setting gives. -/
def selector? : Setting → Option Selector
  | .selector s => some s
  | _ => none

/-- The timeout that a setting gives. -/
def timeout? : Setting → Option Duration
  | .timeout d => some d
  | _ => none

/-- The root that a setting gives. -/
def rootUri? : Setting → Option String
  | .rootUri uri => some uri
  | _ => none

end Setting

variable {α : Type} {say : Setting → Option α} {settings : List Setting}

/-- What settings say last about something. -/
def lastOf (say : Setting → Option α) (settings : List Setting) : Option α :=
  settings.reverse.findSome? say

/-- One more setting has the last word if it says anything, and else the earlier ones have it. This
is the step of the induction on settings. -/
theorem lastOf_concat (settings : List Setting) (s : Setting) :
    lastOf say (settings ++ [s]) = (say s).or (lastOf say settings) := by
  rw [lastOf, List.reverse_append, List.reverse_singleton, List.findSome?_append]
  cases h : say s <;> simp [h, lastOf]

/-- Nothing is said last exactly if nothing is said at all. -/
theorem lastOf_eq_none_iff : lastOf say settings = none ↔ ∀ s ∈ settings, say s = none := by
  rw [lastOf, List.findSome?_eq_none_iff]
  simp only [List.mem_reverse]

/-- Something is said last if it is said at all. -/
theorem exists_lastOf_iff :
    (∃ x, lastOf say settings = some x) ↔ ∃ s ∈ settings, say s ≠ none := by
  rw [← Option.ne_none_iff_exists', ne_eq, lastOf_eq_none_iff]
  simp only [not_forall, exists_prop, ne_eq]

/-! ### What the builder makes of it -/

namespace Builder

/-- What a setting says goes before what was said earlier, and arguments go behind the earlier ones.
All settings are told by this one equation, so that the induction over a list does not look at them
one by one. -/
theorem apply_eq (b : Builder) (s : Setting) :
    b.apply s =
      { command := s.command?.or b.command
        arguments := b.arguments ++ s.arguments
        directory := s.directory?.or b.directory
        address := s.address?.or b.address
        selector := s.selector?.or b.selector
        timeout := s.timeout?.or b.timeout
        rootUri := s.rootUri?.or b.rootUri } := by
  cases s with
  | transport t => cases t <;> simp [apply, Setting.command?, Setting.arguments,
      Setting.directory?, Setting.address?, Setting.selector?, Setting.timeout?, Setting.rootUri?]
  | _ => simp [apply, Setting.command?, Setting.arguments, Setting.directory?,
      Setting.address?, Setting.selector?, Setting.timeout?, Setting.rootUri?]

/-- The builder holds what the settings have said last, and all arguments. From here on a list of
settings counts only by what it says about each field. -/
theorem ofSettings_eq (settings : List Setting) :
    ofSettings settings =
      { command := lastOf Setting.command? settings
        arguments := settings.flatMap Setting.arguments
        directory := lastOf Setting.directory? settings
        address := lastOf Setting.address? settings
        selector := lastOf Setting.selector? settings
        timeout := lastOf Setting.timeout? settings
        rootUri := lastOf Setting.rootUri? settings } := by
  -- From the end of the list, since the builder takes the first setting first.
  induction settings using List.reverseRecOn with
  | nil => rfl
  | append_singleton settings s ih =>
    have hstep : ofSettings (settings ++ [s]) = (ofSettings settings).apply s := by
      rw [ofSettings, List.foldl_append]
      rfl
    rw [hstep, apply_eq, ih]
    simp only [lastOf_concat, List.flatMap_append, List.flatMap_singleton]

/-- What is checked once there is a transport: the transport itself, then the selector, then the
timeout. The order matters, since only the first fault is reported. -/
theorem build_of_transport {b : Builder} {t : Transport} (h : b.transport = .ok t) :
    b.build =
      match t.validate with
      | .error e => .error e
      | .ok () =>
        if (b.selector.getD .beef).isEmpty then .error .emptySelector
        else if (b.timeout.getD defaultTimeout).nanoseconds = 0 then .error .invalidTimeout
        else .ok
          { transport := t
            selector := b.selector.getD .beef
            identity := .client
            timeout := b.timeout.getD defaultTimeout
            rootUri := b.rootUri } := by
  rw [build, h]
  cases hvalid : t.validate with
  -- A transport that is refused ends the checks: the selector and the timeout are not looked at.
  | error e => simp [hvalid, bind, Except.bind]
  | ok u =>
    simp only [hvalid, bind, Except.bind]
    split
    · rfl
    · split
      · rfl
      · rfl

end Builder

/-! ### How building ends -/

/-- The one transport that settings name. -/
inductive Names (settings : List Setting) : Transport → Prop where
  | spawn {command : String} (given : lastOf Setting.command? settings = some command)
      (alone : ∀ s ∈ settings, s.address? = none) :
      Names settings (.spawn command (settings.flatMap Setting.arguments)
        (lastOf Setting.directory? settings))
  | dial {address : Address} (given : lastOf Setting.address? settings = some address)
      (alone : ∀ s ∈ settings, s.command? = none) :
      Names settings (.dial address)

/-- How building can end, and the settings with which it ends so. What is checked later finds
nothing wrong with what is checked earlier. -/
inductive Outcome (settings : List Setting) : Except ConfigError Config → Prop where
  | conflictingTransport (command : ∃ s ∈ settings, s.command? ≠ none)
      (address : ∃ s ∈ settings, s.address? ≠ none) :
      Outcome settings (.error .conflictingTransport)
  | missingTransport (command : ∀ s ∈ settings, s.command? = none)
      (address : ∀ s ∈ settings, s.address? = none) :
      Outcome settings (.error .missingTransport)
  | invalidCommand {command : String} {arguments : List String} {directory : Option Path}
      (names : Names settings (.spawn command arguments directory))
      (blank : allBlank command.toList = true) :
      Outcome settings (.error (.invalidCommand command))
  | invalidAddress {address : Address} (names : Names settings (.dial address))
      (unusable : allBlank address.host.toList = true ∨ address.port = 0) :
      Outcome settings (.error
        (.invalidAddress address.display "host must be non-empty and port non-zero"))
  | emptySelector {t : Transport} (names : Names settings t) (usable : t.Usable)
      (selector : lastOf Setting.selector? settings = some ⟨[]⟩) :
      Outcome settings (.error .emptySelector)
  | invalidTimeout {t : Transport} (names : Names settings t) (usable : t.Usable)
      (selector : lastOf Setting.selector? settings ≠ some ⟨[]⟩)
      (timeout : lastOf Setting.timeout? settings = some ⟨0⟩) :
      Outcome settings (.error .invalidTimeout)
  | success {t : Transport} (names : Names settings t) (usable : t.Usable)
      (selector : lastOf Setting.selector? settings ≠ some ⟨[]⟩)
      (timeout : lastOf Setting.timeout? settings ≠ some ⟨0⟩) :
      Outcome settings (.ok
        { transport := t
          selector := (lastOf Setting.selector? settings).getD .beef
          identity := .client
          timeout := (lastOf Setting.timeout? settings).getD defaultTimeout
          rootUri := lastOf Setting.rootUri? settings })

/-- The default selector has a filter. -/
theorem isEmpty_getD {selector : Option Selector} :
    (selector.getD .beef).isEmpty = true ↔ selector = some ⟨[]⟩ := by
  rcases selector with _ | ⟨_ | ⟨f, filters⟩⟩ <;> simp [Selector.isEmpty, Selector.beef]

/-- The default timeout is not zero. -/
theorem nanoseconds_getD {timeout : Option Duration} :
    (timeout.getD defaultTimeout).nanoseconds = 0 ↔ timeout = some ⟨0⟩ := by
  rcases timeout with _ | ⟨_ | n⟩ <;>
    simp [defaultTimeout, Duration.ofSeconds, Duration.perSecond]

/-- The builder finds the transport that the settings name. -/
theorem Names.transport {t : Transport} (h : Names settings t) :
    (Builder.ofSettings settings).transport = .ok t := by
  rw [Builder.ofSettings_eq, Builder.transport]
  cases h with
  | spawn given alone => rw [given, lastOf_eq_none_iff.mpr alone]
  | dial given alone => rw [given, lastOf_eq_none_iff.mpr alone]

/-- Once the settings name a transport, one of five ways is open. The cases follow the order of the
checks, and each takes along that the checks before it found nothing. -/
theorem outcome_of_names {t : Transport} (h : Names settings t) :
    Outcome settings (Builder.ofSettings settings).build := by
  rw [Builder.build_of_transport h.transport, Builder.ofSettings_eq]
  by_cases husable : t.Usable
  · rw [Transport.validate_eq_ok_iff.mpr husable]
    dsimp only
    split
    · rename_i hempty
      exact .emptySelector h husable (isEmpty_getD.mp hempty)
    · rename_i hselector
      have hselector := fun heq => hselector (isEmpty_getD.mpr heq)
      split
      · rename_i hzero
        exact .invalidTimeout h husable hselector (nanoseconds_getD.mp hzero)
      · rename_i htimeout
        exact .success h husable hselector fun heq => htimeout (nanoseconds_getD.mpr heq)
  · -- What cannot be used is refused for a reason of its own kind.
    cases t with
    | spawn command arguments directory =>
      have hblank : allBlank command.toList = true := by simpa [Transport.Usable] using husable
      rw [Transport.validate, if_pos hblank]
      exact .invalidCommand h hblank
    | dial address =>
      have hunusable : allBlank address.host.toList = true ∨ address.port = 0 := by
        rw [Transport.Usable] at husable
        grind
      rw [Transport.validate, if_pos hunusable]
      exact .invalidAddress h hunusable

/-- Settings that name a command and an address, or neither, are refused for that. -/
theorem Builder.build_of_refused {b : Builder} {e : ConfigError} (h : b.transport = .error e) :
    b.build = .error e := by
  rw [build, h]
  rfl

/-- Building ends in one of these ways. Whether a transport is named depends on what is said last
about a command and about an address, which gives the four cases. -/
theorem outcome_build (settings : List Setting) :
    Outcome settings (Builder.ofSettings settings).build := by
  cases hcommand : lastOf Setting.command? settings with
  | none =>
    cases haddress : lastOf Setting.address? settings with
    | none =>
      -- Nothing is said about either.
      rw [Builder.build_of_refused (e := .missingTransport)
        (by rw [Builder.ofSettings_eq, Builder.transport, hcommand, haddress])]
      exact .missingTransport (lastOf_eq_none_iff.mp hcommand) (lastOf_eq_none_iff.mp haddress)
    | some address => exact outcome_of_names (.dial haddress (lastOf_eq_none_iff.mp hcommand))
  | some command =>
    cases haddress : lastOf Setting.address? settings with
    | none => exact outcome_of_names (.spawn hcommand (lastOf_eq_none_iff.mp haddress))
    | some address =>
      -- Both are given, no matter in which order.
      rw [Builder.build_of_refused (e := .conflictingTransport)
        (by rw [Builder.ofSettings_eq, Builder.transport, hcommand, haddress])]
      exact .conflictingTransport (exists_lastOf_iff.mp ⟨_, hcommand⟩)
        (exists_lastOf_iff.mp ⟨_, haddress⟩)

/-- No more than one of them is open to it: whatever outcome the settings allow, `build` comes to
it. Each case holds the facts that take the checks to its own end. -/
theorem build_of_outcome {r : Except ConfigError Config} (h : Outcome settings r) :
    (Builder.ofSettings settings).build = r := by
  cases h with
  | conflictingTransport command address =>
    -- The transport is looked at first, and both were named. Nothing else is asked.
    obtain ⟨command, hcommand⟩ := exists_lastOf_iff.mpr command
    obtain ⟨address, haddress⟩ := exists_lastOf_iff.mpr address
    refine Builder.build_of_refused ?_
    rw [Builder.ofSettings_eq, Builder.transport, hcommand, haddress]
  | missingTransport command address =>
    refine Builder.build_of_refused ?_
    rw [Builder.ofSettings_eq, Builder.transport, lastOf_eq_none_iff.mpr command,
      lastOf_eq_none_iff.mpr address]
  | invalidCommand names blank =>
    rw [Builder.build_of_transport names.transport, Transport.validate, if_pos blank]
  | invalidAddress names unusable =>
    rw [Builder.build_of_transport names.transport, Transport.validate, if_pos unusable]
  | emptySelector names usable selector =>
    -- The transport is good, so the selector is what is asked next.
    rw [Builder.build_of_transport names.transport, Transport.validate_eq_ok_iff.mpr usable,
      Builder.ofSettings_eq]
    dsimp only
    rw [if_pos (isEmpty_getD.mpr selector)]
  | invalidTimeout names usable selector timeout =>
    rw [Builder.build_of_transport names.transport, Transport.validate_eq_ok_iff.mpr usable,
      Builder.ofSettings_eq]
    dsimp only
    rw [if_neg fun h => selector (isEmpty_getD.mp h), if_pos (nanoseconds_getD.mpr timeout)]
  | success names usable selector timeout =>
    -- No check stops it, and the defaults stand in for what was not set.
    rw [Builder.build_of_transport names.transport, Transport.validate_eq_ok_iff.mpr usable,
      Builder.ofSettings_eq]
    dsimp only
    rw [if_neg fun h => selector (isEmpty_getD.mp h),
      if_neg fun h => timeout (nanoseconds_getD.mp h)]

/-- How building ends, as an equivalence: the settings tell it without the builder. -/
theorem build_eq_iff {r : Except ConfigError Config} :
    (Builder.ofSettings settings).build = r ↔ Outcome settings r :=
  ⟨fun h => h ▸ outcome_build settings, build_of_outcome⟩

/-- A configuration with which a session can work. -/
structure Sound (c : Config) : Prop where
  transport : c.transport.validate = .ok ()
  selector : c.selector.filters ≠ []
  timeout : c.timeout.nanoseconds ≠ 0

/-- A configuration that is built has passed each check, so a session can work with it. -/
theorem sound_of_build {c : Config} (h : (Builder.ofSettings settings).build = .ok c) :
    Sound c := by
  have houtcome := outcome_build settings
  rw [h] at houtcome
  cases houtcome with
  | success names usable selector timeout =>
    refine ⟨Transport.validate_eq_ok_iff.mpr usable, fun hempty => selector ?_,
      fun hzero => timeout (nanoseconds_getD.mp hzero)⟩
    exact isEmpty_getD.mp (List.isEmpty_iff.mpr hempty)

/-- What settings come to. -/
structure Specified (settings : List Setting) : Prop where
  /-- Building ends as the settings have it, and in no other way. -/
  outcome : ∀ r, (Builder.ofSettings settings).build = r ↔ Outcome settings r
  sound : ∀ c, (Builder.ofSettings settings).build = .ok c → Sound c

/-- Whatever settings are given in whatever order, building ends in the one way that they have
open, and with a configuration only if that can be worked with. -/
theorem specified (settings : List Setting) : Specified settings :=
  ⟨fun _ => build_eq_iff, fun _ => sound_of_build⟩

-- The last command counts, arguments add up, and a transport without a directory keeps the old one.
example :
    (Builder.ofSettings [.argument "a", .directory ⟨[47]⟩, .spawn "x",
      .transport (.spawn "y" ["b"] none)]).transport =
    .ok (.spawn "y" ["a", "b"] (some ⟨[47]⟩)) := rfl

end LanguageClient.Config
