import LanguageClient.Config.Transport

/-!
# `LanguageClient.Proofs.Config.Transport`: where a transport comes from

A transport is taken from one source: the command line if it names one, else the environment if
a variable says something, else the default. Each of the first two may say two things at once,
and then none is chosen.

* `validate_eq_ok_iff`: what can be used.
* `Chooses`, `Ambiguous`: which source counts, and when none does.
* `resolve_of_chooses`, `resolve_of_ambiguous`: the transport is that of the source.
-/

set_option autoImplicit false

namespace LanguageClient.Transport

open Text

/-! ### Transports that can be used -/

/-- A transport can be used: neither its command nor its host is blank, and its port is not
zero. -/
def Usable : Transport → Prop
  | .spawn command _ _ => allBlank command.toList = false
  | .dial address => allBlank address.host.toList = false ∧ address.port ≠ 0

/-- The check passes exactly for a transport that can be used. The other modules speak of `Usable`,
and come back to the check with this. -/
theorem validate_eq_ok_iff {t : Transport} : t.validate = .ok () ↔ t.Usable := by
  cases t with
  | spawn command arguments directory =>
    rw [validate, Usable]
    cases allBlank command.toList <;> simp
  | dial address =>
    rw [validate, Usable]
    split
    · -- The host is blank or the port zero, and either is a fault.
      rename_i hblank
      simp only [reduceCtorEq, false_iff]
      grind
    · rename_i hnot
      simp only [true_iff]
      grind

/-! ### Sources -/

/-- A variable says nothing: it is not set, or it is blank. -/
def Silent (value : Option String) : Prop :=
  ∀ text, value = some text → allBlank text.toList = true

/-- Where a transport comes from. -/
inductive Source where
  | command (command : String)
  | address (text : String)
  | default
  deriving DecidableEq, Repr

/-- The transport that a source has, or why it has none. -/
def Source.transport : Source → Except ConfigError Transport
  | .command c => .ok (.spawn c [] none)
  | .address text => (Address.parse text).map .dial
  | .default => .ok (.dial ⟨"127.0.0.1", 5556⟩)

/-- Only an address that is malformed is no transport. -/
theorem Source.transport_eq_error_iff {source : Source} {e : ConfigError} :
    source.transport = .error e ↔
      ∃ text, source = .address text ∧ Address.parse text = .error e := by
  cases source with
  | address text => cases h : Address.parse text <;> simp [Source.transport, Except.map, h]
  | command c => simp [Source.transport]
  | default => simp [Source.transport]

/-- A source gives no arguments. -/
theorem Source.eq_nil_of_spawn {source : Source} {command : String} {given : List String}
    {directory : Option Path} (h : source.transport = .ok (.spawn command given directory)) :
    given = [] := by
  cases source with
  | command c => cases h; rfl
  | address text =>
    cases hparse : Address.parse text <;> simp [Source.transport, Except.map, hparse] at h
  | default => cases h

/-- The source that counts, by the command and the address of the command line and by the
environment. -/
inductive Chooses : Option String → Option String → Variables → Source → Prop where
  | command {command : String} {env : Variables} :
      Chooses (some command) none env (.command command)
  | address {text : String} {env : Variables} : Chooses none (some text) env (.address text)
  | commandVariable {command : String} {env : Variables} (given : env.command = some command)
      (present : allBlank command.toList = false) (alone : Silent env.address) :
      Chooses none none env (.command command)
  | addressVariable {text : String} {env : Variables} (given : env.address = some text)
      (present : allBlank text.toList = false) (alone : Silent env.command) :
      Chooses none none env (.address text)
  | default {env : Variables} (command : Silent env.command) (address : Silent env.address) :
      Chooses none none env .default

/-- The command line names two transports, or it names none and the environment names two. -/
inductive Ambiguous : Option String → Option String → Variables → Prop where
  | commandLine {command text : String} {env : Variables} : Ambiguous (some command) (some text) env
  | environment {env : Variables} (command : ¬Silent env.command) (address : ¬Silent env.address) :
      Ambiguous none none env

/-- A variable gives its value if that is not blank. -/
theorem given_eq_some_iff {value : Option String} {text : String} :
    given value = some text ↔ value = some text ∧ allBlank text.toList = false := by
  rw [given, Option.filter_eq_some_iff, Bool.not_eq_true']

/-- A variable that is not set and one that is blank are the same to the program. -/
theorem given_eq_none_iff {value : Option String} : given value = none ↔ Silent value := by
  simp [given, Silent, Option.filter_eq_none_iff]

variable {command address : Option String} {env : Variables} {source : Source}

/-- A variable that says something has a value that is not blank. -/
theorem exists_given_iff {value : Option String} :
    ¬Silent value ↔ ∃ text, given value = some text := by
  rw [← given_eq_none_iff, ← ne_eq, Option.ne_none_iff_exists']

/-- The transport is that of the source that counts. Sources and their transports are told apart, so
that a malformed address is a fault of its source and not a reason to take another. -/
theorem resolve_of_chooses (h : Chooses command address env source) :
    resolve command address env = source.transport := by
  -- The command line and the environment read an address in the same way.
  have haddress : ∀ text, (do return Transport.dial (← Address.parse text)) =
      (Source.address text).transport := by
    intro text
    rw [Source.transport]
    cases Address.parse text <;> rfl
  cases h with
  | command => rfl
  | address => exact haddress _
  | commandVariable given present alone =>
    rw [resolve, ofVariables, given_eq_some_iff.mpr ⟨given, present⟩, given_eq_none_iff.mpr alone]
    rfl
  | @addressVariable text _ given present alone =>
    rw [resolve, ofVariables, given_eq_some_iff.mpr ⟨given, present⟩, given_eq_none_iff.mpr alone,
      ← haddress]
    dsimp only
    cases Address.parse text <;> rfl
  | default command address =>
    rw [resolve, ofVariables, given_eq_none_iff.mpr command, given_eq_none_iff.mpr address]
    rfl

/-- Two transports in one place are a conflict, on the command line as in the environment. -/
theorem resolve_of_ambiguous (h : Ambiguous command address env) :
    resolve command address env = .error .conflictingTransport := by
  cases h with
  | commandLine => rfl
  | environment command address =>
    obtain ⟨command, hcommand⟩ := exists_given_iff.mp command
    obtain ⟨text, htext⟩ := exists_given_iff.mp address
    rw [resolve, ofVariables, hcommand, htext]
    rfl

/-- One source counts unless there is one too many. So each command line and each environment is a
case of either `resolve_of_chooses` or `resolve_of_ambiguous`. -/
theorem ambiguous_or_chooses (command address : Option String) (env : Variables) :
    Ambiguous command address env ∨ ∃ source, Chooses command address env source := by
  match command, address with
  | some _, some _ => exact .inl .commandLine
  | some _, none => exact .inr ⟨_, .command⟩
  | none, some _ => exact .inr ⟨_, .address⟩
  | none, none =>
    -- The command line names nothing, and the environment is asked.
    by_cases hcommand : Silent env.command
    · by_cases haddress : Silent env.address
      · exact .inr ⟨_, .default hcommand haddress⟩
      · obtain ⟨text, htext⟩ := exists_given_iff.mp haddress
        obtain ⟨hgiven, hpresent⟩ := given_eq_some_iff.mp htext
        exact .inr ⟨_, .addressVariable hgiven hpresent hcommand⟩
    · by_cases haddress : Silent env.address
      · obtain ⟨text, htext⟩ := exists_given_iff.mp hcommand
        obtain ⟨hgiven, hpresent⟩ := given_eq_some_iff.mp htext
        exact .inr ⟨_, .commandVariable hgiven hpresent haddress⟩
      · exact .inl (.environment hcommand haddress)

end LanguageClient.Transport
