import LanguageClient.Program
import LanguageClient.Proofs.Config.Builder

/-!
# `LanguageClient.Proofs.Config.Selection`: the configuration of the program

The program takes its transport from the source that counts, makes settings of it and of the rest
of the command line, and has the builder make a configuration of them. The root is looked at
between the two, so a root without a URI is reported after a transport that cannot be had, and
before all that the builder checks.

* `Config.ofSettings_programSettings`: what the settings of the program come to.
* `Config.forProgram_of_root`: the configuration from a transport that has been chosen.
* `Program.Outcome`, `Program.configure_eq_iff`: how all of it can come out, and from which
  command line, environment and root.
* `Program.selected`: when there is a configuration, and what is in it.
-/

set_option autoImplicit false

namespace LanguageClient

open Text

/-- What the program makes of a transport: a spawned server gets the arguments, and works in the
root. -/
def Transport.equip (arguments : List String) (root : Path) : Transport → Transport
  | .spawn command given _ => .spawn command (given ++ arguments) (some root)
  | .dial address => .dial address

namespace Config

/-- Arguments that are set one by one are added in their order. -/
theorem foldl_argument (b : Builder) (arguments : List String) :
    (arguments.map Setting.argument).foldl Builder.apply b =
      { b with arguments := b.arguments ++ arguments } := by
  induction arguments generalizing b with
  | nil => simp
  | cons value arguments ih => simp [ih, Builder.apply]

/-- What the settings of the program come to: the transport that was chosen, with its arguments and
directory, the selector of the language, the timeout if one is given, and the root. -/
theorem ofSettings_programSettings (t : Transport) (arguments : List String) (root : Path)
    (uri : String) (timeout : Option Nat) :
    let b := Builder.ofSettings (programSettings t arguments root uri timeout)
    b.transport = .ok (t.equip arguments root) ∧ b.selector = none ∧
      b.timeout = timeout.map Duration.ofSeconds ∧ b.rootUri = some uri := by
  -- The transport and the root come first, then the timeout, then what a spawned server is given.
  unfold Builder.ofSettings programSettings
  rw [List.foldl_append, List.foldl_append]
  cases t with
  | spawn command given directory =>
    cases timeout <;> simp [foldl_argument, Builder.apply, Builder.transport, Transport.equip]
  | dial address =>
    cases timeout <;> simp [Builder.apply, Builder.transport, Transport.equip]

variable {t : Transport} {arguments : List String} {root : Path} {timeout : Option Nat}

/-- Arguments and root do not decide whether a transport can be used. So it can be said of the
transport that was chosen, before the program equips it. -/
theorem validate_equip : (t.equip arguments root).validate = t.validate := by
  cases t <;> rfl

/-- The configuration that the program makes of a transport that can be used. -/
def ofProgram (t : Transport) (arguments : List String) (root : Path) (timeout : Option Nat)
    (uri : String) : Config :=
  { transport := t.equip arguments root
    selector := .beef
    identity := .client
    timeout := (timeout.map Duration.ofSeconds).getD defaultTimeout
    rootUri := some uri }

/-- No number of seconds but zero makes a timeout of zero. The builder looks at nanoseconds, and the
command line gives seconds. -/
theorem nanoseconds_eq_zero_iff :
    ((timeout.map Duration.ofSeconds).getD defaultTimeout).nanoseconds = 0 ↔
      timeout = some 0 := by
  rw [nanoseconds_getD]
  cases timeout with
  | none => simp
  | some n =>
    have hsecond : Duration.perSecond ≠ 0 := by decide
    simp only [Option.map_some, Duration.ofSeconds, Option.some.injEq, Duration.mk.injEq]
    exact Nat.mul_eq_zero.trans (or_iff_left hsecond)

/-- What is made of a transport once the root has a URI. The selector is not empty, so only the
transport and the timeout are left to find fault with. -/
theorem forProgram_of_root {uri : String} (h : fileUri root = .ok uri) :
    (forProgram t arguments root timeout).1 =
      match t.validate with
      | .error e => .error e
      | .ok () =>
        if timeout = some 0 then .error .invalidTimeout
        else .ok (ofProgram t arguments root timeout uri) := by
  obtain ⟨htransport, hselector, htimeout, hroot⟩ :=
    ofSettings_programSettings t arguments root uri timeout
  -- The program sets no selector, and the default one is not empty.
  have hbeef : Selector.beef.isEmpty = false := rfl
  rw [forProgram, h]
  dsimp only
  rw [Builder.build_of_transport htransport, validate_equip, hselector, htimeout, hroot,
    Option.getD_none, hbeef]
  simp only [Bool.false_eq_true, if_false, nanoseconds_eq_zero_iff]
  rfl

/-- A root without a URI is reported before the builder checks anything, the transport included. -/
theorem forProgram_of_rootless {cause : NoFileUri} (h : fileUri root = .error cause) :
    (forProgram t arguments root timeout).1 = .error (.invalidRoot cause) := by
  rw [forProgram, h]

end Config

namespace Program

open Transport (Source Chooses Ambiguous)

variable {o : CommandLine.Options} {env : Transport.Variables} {root : Path} {source : Source}
  {t : Transport}

/-- A transport that is found goes on to the builder, with the rest of the command line. -/
theorem configure_of_resolved (h : Transport.resolve o.command o.tcp env = .ok t) :
    configure o env root = Config.forProgram t o.arguments root o.timeout := by
  rw [configure, h]

/-- The source that counts goes on to the builder if it has a transport, with the rest of the
command line. -/
theorem configure_of_chosen (chosen : Chooses o.command o.tcp env source)
    (transport : source.transport = .ok t) :
    configure o env root = Config.forProgram t o.arguments root o.timeout :=
  configure_of_resolved ((Transport.resolve_of_chooses chosen).trans transport)

/-- If no transport is found, that is the error, and nothing is logged. -/
theorem configure_of_refused {e : ConfigError}
    (h : Transport.resolve o.command o.tcp env = .error e) :
    configure o env root = (.error e, []) := by
  rw [configure, h]

/-- How the configuration of the program can come out. What is looked at later finds nothing wrong
with what is looked at earlier. -/
inductive Outcome (o : CommandLine.Options) (env : Transport.Variables) (root : Path) :
    Except ConfigError Config → Prop where
  | ambiguous (ambiguous : Ambiguous o.command o.tcp env) :
      Outcome o env root (.error .conflictingTransport)
  | malformed {text : String} {e : ConfigError}
      (chosen : Chooses o.command o.tcp env (.address text))
      (malformed : Address.parse text = .error e) : Outcome o env root (.error e)
  | rootless {source : Source} {t : Transport} {cause : NoFileUri}
      (chosen : Chooses o.command o.tcp env source)
      (transport : source.transport = .ok t) (rootless : Config.fileUri root = .error cause) :
      Outcome o env root (.error (.invalidRoot cause))
  | unusable {source : Source} {t : Transport} {uri : String} {e : ConfigError}
      (chosen : Chooses o.command o.tcp env source) (transport : source.transport = .ok t)
      (rooted : Config.fileUri root = .ok uri) (unusable : t.validate = .error e) :
      Outcome o env root (.error e)
  | invalidTimeout {source : Source} {t : Transport} {uri : String}
      (chosen : Chooses o.command o.tcp env source)
      (transport : source.transport = .ok t) (rooted : Config.fileUri root = .ok uri)
      (usable : t.Usable) (timeout : o.timeout = some 0) :
      Outcome o env root (.error .invalidTimeout)
  | success {source : Source} {t : Transport} {uri : String}
      (chosen : Chooses o.command o.tcp env source)
      (transport : source.transport = .ok t) (rooted : Config.fileUri root = .ok uri)
      (usable : t.Usable) (timeout : o.timeout ≠ some 0) :
      Outcome o env root (.ok (Config.ofProgram t o.arguments root o.timeout uri))

/-- The configuration comes out in one of these ways. The cases follow the program: which source
counts, whether it has a transport, whether the root has a URI, and what the builder checks. -/
theorem outcome_configure (o : CommandLine.Options) (env : Transport.Variables) (root : Path) :
    Outcome o env root (configure o env root).1 := by
  rcases Transport.ambiguous_or_chooses o.command o.tcp env with hambiguous | ⟨source, hchosen⟩
  · rw [configure_of_refused (Transport.resolve_of_ambiguous hambiguous)]
    exact .ambiguous hambiguous
  · cases htransport : source.transport with
    | error e =>
      obtain ⟨text, rfl, hmalformed⟩ := Source.transport_eq_error_iff.mp htransport
      rw [configure_of_refused ((Transport.resolve_of_chooses hchosen).trans htransport)]
      exact .malformed hchosen hmalformed
    | ok t =>
      rw [configure_of_chosen hchosen htransport]
      -- The root comes before all that the builder checks.
      cases hroot : Config.fileUri root with
      | error cause =>
        rw [Config.forProgram_of_rootless hroot]
        exact .rootless hchosen htransport hroot
      | ok uri =>
        rw [Config.forProgram_of_root hroot]
        cases hvalid : t.validate with
        | error e => exact .unusable hchosen htransport hroot hvalid
        | ok _ =>
          have husable := Transport.validate_eq_ok_iff.mp hvalid
          dsimp only
          split
          · exact .invalidTimeout hchosen htransport hroot husable ‹_›
          · exact .success hchosen htransport hroot husable ‹_›

/-- No more than one of them is open. Each case has what it takes to go through the program up to
its own end. -/
theorem configure_of_outcome {r : Except ConfigError Config} (h : Outcome o env root r) :
    (configure o env root).1 = r := by
  cases h with
  | ambiguous ambiguous =>
    rw [configure_of_refused (Transport.resolve_of_ambiguous ambiguous)]
  | malformed chosen malformed =>
    -- The source counts although it has no transport: there is no other to fall back on.
    have htransport := Source.transport_eq_error_iff.mpr ⟨_, rfl, malformed⟩
    rw [configure_of_refused ((Transport.resolve_of_chooses chosen).trans htransport)]
  | rootless chosen transport rootless =>
    rw [configure_of_chosen chosen transport, Config.forProgram_of_rootless rootless]
  | unusable chosen transport rooted unusable =>
    rw [configure_of_chosen chosen transport, Config.forProgram_of_root rooted, unusable]
  | invalidTimeout chosen transport rooted usable timeout =>
    rw [configure_of_chosen chosen transport, Config.forProgram_of_root rooted,
      Transport.validate_eq_ok_iff.mpr usable]
    exact if_pos timeout
  | success chosen transport rooted usable timeout =>
    rw [configure_of_chosen chosen transport, Config.forProgram_of_root rooted,
      Transport.validate_eq_ok_iff.mpr usable]
    exact if_neg timeout

/-- How the configuration comes out, as an equivalence with the command line, the environment and
the root. -/
theorem configure_eq_iff {r : Except ConfigError Config} :
    (configure o env root).1 = r ↔ Outcome o env root r :=
  ⟨fun h => h ▸ outcome_configure o env root, configure_of_outcome⟩

/-- The environment has no say if the command line names a transport. Two transports on the command
line are a conflict in every environment. -/
theorem configure_of_commandLine (h : o.command ≠ none ∨ o.tcp ≠ none)
    (env env' : Transport.Variables) : configure o env root = configure o env' root := by
  have hresolve :
      Transport.resolve o.command o.tcp env = Transport.resolve o.command o.tcp env' := by
    unfold Transport.resolve
    cases hcommand : o.command <;> cases htcp : o.tcp <;> simp_all
  rw [configure, configure, hresolve]

/-- What the configuration of the program comes to:

- `outcome`: it comes out in the one way that is open, and in no other;
- `exactly`: there is one exactly if one source counts and has a transport that can be used, the
  root has a URI, and the timeout is not zero;
- `commandLine`: the environment has no say if the command line names a transport;
- `spawned`, `dialed`: a server that is spawned gets the arguments and works in the root, and one
  that is dialed does not depend on the arguments;
- `rootless`: a root without a URI is reported for every transport, whether it can be used or
  not. -/
structure Selected (o : CommandLine.Options) (env : Transport.Variables) (root : Path) : Prop where
  outcome : ∀ r, (configure o env root).1 = r ↔ Outcome o env root r
  exactly : (∃ c, (configure o env root).1 = .ok c) ↔
    (∃ source t, Chooses o.command o.tcp env source ∧ source.transport = .ok t ∧ t.Usable) ∧
      (∃ uri, Config.fileUri root = .ok uri) ∧ o.timeout ≠ some 0
  commandLine : o.command ≠ none ∨ o.tcp ≠ none →
    ∀ env', configure o env root = configure o env' root
  spawned : ∀ c command arguments directory, (configure o env root).1 = .ok c →
    c.transport = .spawn command arguments directory →
      allBlank command.toList = false ∧ arguments = o.arguments ∧ directory = some root
  dialed : ∀ c address, (configure o env root).1 = .ok c → c.transport = .dial address →
    allBlank address.host.toList = false ∧ address.port ≠ 0 ∧
      ∀ arguments, (configure { o with arguments } env root).1 = .ok c
  rootless : ∀ t cause, Transport.resolve o.command o.tcp env = .ok t →
    Config.fileUri root = .error cause → (configure o env root).1 = .error (.invalidRoot cause)

/-- What the program makes of its command line, its environment and its root. Each field but the
first is read off from the equivalence `configure_eq_iff`. -/
theorem selected (o : CommandLine.Options) (env : Transport.Variables) (root : Path) :
    Selected o env root := by
  constructor
  case outcome => exact fun r => configure_eq_iff
  case exactly =>
    constructor
    · rintro ⟨c, hc⟩
      cases configure_eq_iff.mp hc with
      | success chosen transport rooted usable timeout =>
        exact ⟨⟨_, _, chosen, transport, usable⟩, ⟨_, rooted⟩, timeout⟩
    · rintro ⟨⟨source, t, chosen, transport, usable⟩, ⟨uri, rooted⟩, timeout⟩
      exact ⟨_, configure_of_outcome (.success chosen transport rooted usable timeout)⟩
  case commandLine => exact fun h env' => configure_of_commandLine h env env'
  case spawned =>
    intro c command arguments directory hc hspawn
    cases configure_eq_iff.mp hc with
    | @success source t uri chosen transport rooted usable timeout =>
      -- Only success gives a configuration, and its transport is the one that was chosen.
      cases t with
      | spawn named given _ =>
        -- A command that is named brings no arguments of its own, so all come from the command
        -- line.
        obtain rfl := Source.eq_nil_of_spawn transport
        cases hspawn
        exact ⟨usable, List.nil_append _, rfl⟩
      | dial address => exact nomatch hspawn
  case dialed =>
    intro c address hc hdial
    cases configure_eq_iff.mp hc with
    | @success source t uri chosen transport rooted usable timeout =>
      cases t with
      | spawn named given _ => exact nomatch hdial
      | dial address =>
        cases hdial
        refine ⟨usable.1, usable.2, fun arguments => ?_⟩
        -- None of the conditions mentions the arguments.
        exact configure_of_outcome
          (.success (o := { o with arguments }) chosen transport rooted usable timeout)
  case rootless =>
    intro t cause hresolve hroot
    rw [configure_of_resolved hresolve, Config.forProgram_of_rootless hroot]

end Program

end LanguageClient
