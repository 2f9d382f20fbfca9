import DocComments.Proofs.Json.Fields
import DocComments.Proofs.Text.Find
import DocComments.Settings

/-! Settings in their layers. Each setting is what the environment says, else what the file gives, else what
it is initially. Settings are refused for the first check that fails, and the file is checked by itself before
the environment is looked at. -/
namespace DocComments
open Decoder

inductive ServerSettings.Key : Type → Type
  | host : Key String
  | port : Key Nat

inductive GeneratorSettings.Key : Type → Type
  | endpoint : Key String
  | model : Key String
  | apiKey : Key (Option String)
  | temperature : Key Single
  | timeoutSecs : Key Nat
  | concurrency : Key Nat
  | batchDelayMs : Key Nat
  | defaultStyle : Key (Option Style)

inductive HistorySettings.Key : Type → Type
  | dir : Key String

namespace ServerSettings.Key
variable {α : Type}

def name : Key α → String
  | host => "host"
  | port => "port"

def decoder : Key α → Decoder α
  | host => .text
  | port => .natUpTo 65535

def get : Key α → ServerSettings → α
  | host => ServerSettings.host
  | port => ServerSettings.port

def override? (env : Environment) : Key α → Option α
  | host => env "DOCSMITH_HOST"
  | port => (env "DOCSMITH_PORT").bind Settings.port?

private theorem hasField (k : Key α) : HasField ServerSettings.fields k.name k.decoder k.get := by
  cases k <;> refine ⟨by decide, by decide, ?_⟩ <;>
    simp only [ServerSettings.fields, List.forall_mem_cons] <;> refine ⟨?_, ?_, List.forall_mem_nil _⟩ <;>
    first
    | exact Field.serves_own fun _ _ => rfl
    | exact Field.serves_other (by decide) fun _ _ => rfl

private theorem eq_of_get {s s' : ServerSettings} (h : ∀ {α : Type} (k : Key α), k.get s = k.get s') : s = s' := by
  obtain ⟨host, port⟩ := s
  exact congrArg₂ ServerSettings.mk (h Key.host) (h Key.port)

end ServerSettings.Key

namespace GeneratorSettings.Key
variable {α : Type}

def name : Key α → String
  | endpoint => "endpoint"
  | model => "model"
  | apiKey => "api_key"
  | temperature => "temperature"
  | timeoutSecs => "timeout_secs"
  | concurrency => "concurrency"
  | batchDelayMs => "batch_delay_ms"
  | defaultStyle => "default_style"

def decoder : Key α → Decoder α
  | endpoint | model => .text
  | apiKey => .option .text
  | temperature => .single
  | timeoutSecs | concurrency | batchDelayMs => .word
  | defaultStyle => .option Style.decoder

def get : Key α → GeneratorSettings → α
  | endpoint => GeneratorSettings.endpoint
  | model => GeneratorSettings.model
  | apiKey => GeneratorSettings.apiKey
  | temperature => GeneratorSettings.temperature
  | timeoutSecs => GeneratorSettings.timeoutSecs
  | concurrency => GeneratorSettings.concurrency
  | batchDelayMs => GeneratorSettings.batchDelayMs
  | defaultStyle => GeneratorSettings.defaultStyle

def override? (env : Environment) : Key α → Option α
  | endpoint => env "DOCSMITH_ENDPOINT"
  | model => env "DOCSMITH_MODEL"
  | apiKey => (env "DOCSMITH_API_KEY").map some
  | temperature | timeoutSecs | concurrency | batchDelayMs | defaultStyle => none

private theorem hasField (k : Key α) : HasField GeneratorSettings.fields k.name k.decoder k.get := by
  cases k <;> refine ⟨by decide, by decide, ?_⟩ <;>
    simp only [GeneratorSettings.fields, List.forall_mem_cons] <;>
    refine ⟨?_, ?_, ?_, ?_, ?_, ?_, ?_, ?_, List.forall_mem_nil _⟩ <;>
    first
    | exact Field.serves_own fun _ _ => rfl
    | exact Field.serves_other (by decide) fun _ _ => rfl

private theorem eq_of_get {s s' : GeneratorSettings} (h : ∀ {α : Type} (k : Key α), k.get s = k.get s') : s = s' := by
  cases s
  cases s'
  rw [GeneratorSettings.mk.injEq]
  exact ⟨h endpoint, h model, h apiKey, h temperature, h timeoutSecs, h concurrency, h batchDelayMs,
    h defaultStyle⟩

end GeneratorSettings.Key

namespace HistorySettings.Key
variable {α : Type}

def name : Key α → String
  | dir => "dir"

def decoder : Key α → Decoder α
  | dir => .text

def get : Key α → HistorySettings → α
  | dir => HistorySettings.dir

def override? (env : Environment) : Key α → Option α
  | dir => env "DOCSMITH_HISTORY_DIR"

private theorem hasField (k : Key α) : HasField HistorySettings.fields k.name k.decoder k.get := by
  cases k
  exact ⟨by decide, by decide, List.forall_mem_singleton.mpr (Field.serves_own fun _ _ => rfl)⟩

end HistorySettings.Key

namespace Settings

/-- The sections of settings, by the type of what they hold. -/
inductive Section : Type → Type
  | server : Section ServerSettings
  | generator : Section GeneratorSettings
  | history : Section HistorySettings

namespace Section
variable {σ : Type}

def name : Section σ → String
  | server => "server"
  | generator => "generator"
  | history => "history"

def decoder (dir : String) : Section σ → Decoder σ
  | server => record ServerSettings.fields {} some
  | generator => GeneratorSettings.decoder
  | history => record HistorySettings.fields { dir } some

def get : Section σ → Settings → σ
  | server => Settings.server
  | generator => Settings.generator
  | history => Settings.history

/-- What settings as JSON give for the section. -/
def raw? (document : Json) (k : Section σ) : Option Json :=
  given? ["server", "generator", "history"] k.name document

private theorem hasField (dir : String) (k : Section σ) : HasField (fields dir) k.name (k.decoder dir) k.get := by
  have hnames : (fields dir).map (·.name) = ["server", "generator", "history"] := rfl
  cases k <;> refine ⟨by rw [hnames]; decide, by rw [hnames]; decide, ?_⟩ <;>
    simp only [fields, List.forall_mem_cons] <;> refine ⟨?_, ?_, ?_, List.forall_mem_nil _⟩ <;>
    first
    | exact Field.serves_own fun _ _ => rfl
    | exact Field.serves_other (by decide) fun _ _ => rfl

end Section

/-- All settings, by the type of their values. -/
inductive Key (α : Type) : Type
  | server (k : ServerSettings.Key α)
  | generator (k : GeneratorSettings.Key α)
  | history (k : HistorySettings.Key α)

namespace Key
variable {α : Type}

def get : Key α → Settings → α
  | server k, s => k.get s.server
  | generator k, s => k.get s.generator
  | history k, s => k.get s.history

/-- The value that settings as JSON give for the setting, as it stands there. -/
def raw? (document : Json) : Key α → Option Json
  | server k => (Section.server.raw? document).bind (given? (ServerSettings.fields.map (·.name)) k.name)
  | generator k =>
    (Section.generator.raw? document).bind (given? (GeneratorSettings.fields.map (·.name)) k.name)
  | history k => (Section.history.raw? document).bind (given? (HistorySettings.fields.map (·.name)) k.name)

def decoder : Key α → Decoder α
  | server k => k.decoder
  | generator k => k.decoder
  | history k => k.decoder

/-- The value that a file gives for the setting, if there is a file and it gives one. -/
def inFile? (file : Option SettingsFile) (k : Key α) : Option Json :=
  (file.bind (·.text)).bind fun text => k.raw? (Json.Document.ofText text).value

def override? (env : Environment) : Key α → Option α
  | server k => k.override? env
  | generator k => k.override? env
  | history k => k.override? env

end Key

/-- Settings that have the same values are the same. -/
private theorem eq_of_get {s s' : Settings} (h : ∀ {α : Type} (k : Key α), k.get s = k.get s') : s = s' := by
  cases s
  cases s'
  rw [Settings.mk.injEq]
  exact ⟨ServerSettings.Key.eq_of_get fun k => h (.server k),
    GeneratorSettings.Key.eq_of_get fun k => h (.generator k),
    congrArg HistorySettings.mk (h (.history .dir))⟩

/-- What settings as JSON do not give is as initially. -/
theorem takes_of_decoder {dir : String} {document : Json} {s : Settings} (h : decoder dir document = .ok s)
    {α : Type} (k : Key α) : Takes k.decoder (k.get (initial dir)) (k.raw? document) (k.get s) := by
  cases k with
  | server k => exact takes_of_section (Section.server.hasField dir) k.hasField rfl h
  | generator k => exact takes_of_section (Section.generator.hasField dir) k.hasField rfl h
  | history k => exact takes_of_section (Section.history.hasField dir) k.hasField rfl h

structure IsSound (s : Settings) : Prop where
  concurrency : 1 ≤ s.generator.concurrency
  endpoint : Text.allBlank s.generator.endpoint.toList = false

/-- What is wrong with settings. The number of calls is looked at before the endpoint. -/
inductive Fails (s : Settings) : SettingsError → Prop
  | zeroConcurrency (h : s.generator.concurrency = 0) : Fails s .zeroConcurrency
  | blankEndpoint (hconcurrency : s.generator.concurrency ≠ 0)
      (h : Text.allBlank s.generator.endpoint.toList) : Fails s .blankEndpoint

private theorem validated_eq_ok_iff {s s' : Settings} :
    ((validate s).map fun _ => s) = .ok s' ↔ s.IsSound ∧ s = s' := by
  rw [validate]
  constructor
  · intro h
    split at h
    · cases h
    · rename_i hconcurrency
      split at h
      · cases h
      · rename_i hendpoint
        exact ⟨⟨Nat.pos_of_ne_zero hconcurrency, Bool.eq_false_iff.mpr hendpoint⟩, Except.ok.inj h⟩
  · rintro ⟨⟨hconcurrency, hendpoint⟩, rfl⟩
    rw [if_neg (Nat.ne_of_gt hconcurrency), hendpoint]
    rfl

private theorem validated_eq_error_iff {s : Settings} {e : SettingsError} :
    ((validate s).map fun _ => s) = .error e ↔ s.Fails e := by
  rw [validate]
  constructor
  · intro h
    split at h
    · rename_i hconcurrency
      obtain rfl := Except.error.inj h
      exact .zeroConcurrency hconcurrency
    · rename_i hconcurrency
      split at h
      · rename_i hendpoint
        obtain rfl := Except.error.inj h
        exact .blankEndpoint hconcurrency hendpoint
      · cases h
  · rintro (hconcurrency | ⟨hconcurrency, hendpoint⟩)
    · rw [if_pos hconcurrency]
      rfl
    · rw [if_neg hconcurrency, if_pos hendpoint]
      rfl

/-- Whether a text is a port number: decimal digits, with one plus sign in front or without. -/
structure IsPort (text : List Char) (port : Nat) : Prop where
  shape : ∃ digits, digits ≠ [] ∧ (∀ c ∈ digits, Text.isAsciiDigit c) ∧
    (text = digits ∨ text = '+' :: digits) ∧ port = Numeral.ofDigits digits
  le : port ≤ 65535

theorem port?_eq_some_iff {text : String} {port : Nat} :
    port? text = some port ↔ IsPort text.toList port := by
  have hdigits : ∀ digits : List Char, (digits.isEmpty || !digits.all Text.isAsciiDigit) = false ↔
      digits ≠ [] ∧ ∀ c ∈ digits, Text.isAsciiDigit c := fun digits => by simp
  simp only [port?]
  constructor
  · intro h
    split at h
    · cases h
    · rename_i hshape
      obtain ⟨hne, hall⟩ := (hdigits _).mp (Bool.eq_false_iff.mpr hshape)
      split at h
      · rename_i hle
        obtain rfl := Option.some.inj h
        refine ⟨⟨_, hne, hall, ?_, rfl⟩, hle⟩
        rw [Text.withoutPrefix]
        cases hplus : Text.dropPrefix? ['+'] text.toList with
        | none => exact .inl rfl
        | some digits => exact .inr (Text.dropPrefix?_eq_some_iff.mp hplus)
      · cases h
  · rintro ⟨⟨digits, hne, hall, htext, rfl⟩, hle⟩
    have hbare : Text.withoutPrefix ['+'] text.toList = digits := by
      obtain htext | htext := htext
      · have hplus : ¬['+'] <+: digits := fun hstart =>
          absurd (hall '+' (hstart.subset List.mem_cons_self)) (by decide)
        rw [htext, Text.withoutPrefix, Text.dropPrefix?_eq_none_iff.mpr hplus, Option.getD_none]
      · rw [htext, Text.withoutPrefix]
        exact congrArg (Option.getD · _) (Text.dropPrefix?_append ['+'] digits)
    rw [hbare, (hdigits digits).mpr ⟨hne, hall⟩]
    simp [hle]

/-- Whether the environment gives no port number, or one that can be read. -/
def PortReads (env : Environment) : Prop :=
  ∀ text, env "DOCSMITH_PORT" = some text → ∃ port, IsPort text.toList port

/-- Whether the second settings are the first with the values that the environment gives. -/
def Overridden (env : Environment) (base s : Settings) : Prop :=
  ∀ {α : Type} (k : Key α), k.get s = (k.override? env).getD (k.get base)

/-- The layers leave one choice for each setting. -/
theorem Overridden.unique {env : Environment} {base s s' : Settings} (h : Overridden env base s)
    (h' : Overridden env base s') : s = s' :=
  eq_of_get fun k => (h k).trans (h' k).symm

private theorem bind_eq_ok_iff {ε β γ : Type} {x : Except ε β} {f : β → Except ε γ} {c : γ} :
    x >>= f = .ok c ↔ ∃ b, x = .ok b ∧ f b = .ok c := by
  cases x <;> simp [bind, Except.bind]

private theorem bind_eq_error_iff {ε β γ : Type} {x : Except ε β} {f : β → Except ε γ} {e : ε} :
    x >>= f = .error e ↔ x = .error e ∨ ∃ b, x = .ok b ∧ f b = .error e := by
  cases x <;> simp [bind, Except.bind]

/-- What is not refused takes the values of the environment over. -/
theorem overridden_of_override {env : Environment} {base s : Settings} (h : override env base = .ok s) :
    Overridden env base s := by
  have hkey : (env "DOCSMITH_API_KEY" <|> base.generator.apiKey) =
      ((env "DOCSMITH_API_KEY").map some).getD base.generator.apiKey := by
    cases env "DOCSMITH_API_KEY" <;> rfl
  -- every field is taken over by itself, and only that of the port number is looked into
  cases henv : env "DOCSMITH_PORT" with
  | none =>
    simp only [override, henv] at h
    obtain rfl := Except.ok.inj h
    have hport : ((env "DOCSMITH_PORT").bind port?).getD base.server.port = base.server.port := by
      rw [henv, Option.bind_none, Option.getD_none]
    rintro α (k | k | k) <;> cases k <;> first | rfl | exact hkey | exact hport.symm
  | some text =>
    cases hread : port? text with
    | none =>
      simp only [override, henv, hread] at h
      cases h
    | some port =>
      simp only [override, henv, hread] at h
      obtain rfl := Except.ok.inj h
      have hport : ((env "DOCSMITH_PORT").bind port?).getD base.server.port = port := by
        rw [henv, Option.bind_some, hread, Option.getD_some]
      rintro α (k | k | k) <;> cases k <;> first | rfl | exact hkey | exact hport.symm

/-- Where the port number can be read, nothing is refused. -/
theorem exists_override {env : Environment} (h : PortReads env) (base : Settings) :
    ∃ s, override env base = .ok s := by
  cases henv : env "DOCSMITH_PORT" with
  | none => simp only [override, henv]; exact ⟨_, rfl⟩
  | some text =>
    obtain ⟨port, hport⟩ := h text henv
    simp only [override, henv, port?_eq_some_iff.mpr hport]
    exact ⟨_, rfl⟩

private theorem override_of_unreadable {env : Environment} {text : String} (henv : env "DOCSMITH_PORT" = some text)
    (h : ∀ port, ¬IsPort text.toList port) (base : Settings) :
    override env base = .error (.invalidPort text) := by
  have hnone : port? text = none := Option.eq_none_iff_forall_ne_some.mpr fun port hport =>
    h port (port?_eq_some_iff.mp hport)
  simp only [override, henv, hnone]
  rfl

/-- Whether the settings are those that a file gives, or the initial ones where there is no file. -/
inductive Given (dir : String) : Option SettingsFile → Settings → Prop
  | none : Given dir none (initial dir)
  | file {file : SettingsFile} {text : String} {s : Settings} (htext : file.text = some text)
      (h : Decoder.ofText (decoder dir) text = .ok s) : Given dir (some file) s

/-- What is wrong with what is given: the file cannot be read, it does not hold settings, or they are not
sound. -/
inductive GivenFails (dir : String) (file : Option SettingsFile) : SettingsError → Prop
  | unreadable {f : SettingsFile} (hfile : file = some f) (h : f.text = none) :
      GivenFails dir file (.unreadable f.path)
  | undecodable {f : SettingsFile} {text : String} {defect : Defect} (hfile : file = some f)
      (htext : f.text = some text) (h : Decoder.ofText (decoder dir) text = .error defect) :
      GivenFails dir file (.undecodable defect)
  | unsound {base : Settings} {e : SettingsError} (hbase : Given dir file base) (h : base.Fails e) :
      GivenFails dir file e

/-- The error of the first check that fails: of what is given by itself, of the port number in the
environment, or of what the layers make together. -/
inductive FirstFailure (dir : String) (file : Option SettingsFile) (env : Environment) : SettingsError → Prop
  | given {e : SettingsError} (h : GivenFails dir file e) : FirstFailure dir file env e
  | port {base : Settings} {text : String} (hbase : Given dir file base) (hsound : base.IsSound)
      (henv : env "DOCSMITH_PORT" = some text) (h : ∀ port, ¬IsPort text.toList port) :
      FirstFailure dir file env (.invalidPort text)
  | together {base s : Settings} {e : SettingsError} (hbase : Given dir file base) (hsound : base.IsSound)
      (hport : PortReads env) (hover : Overridden env base s) (h : s.Fails e) : FirstFailure dir file env e

theorem isSound_initial (dir : String) : (initial dir).IsSound :=
  ⟨show 1 ≤ ({} : GeneratorSettings).concurrency by decide,
    show Text.allBlank ({} : GeneratorSettings).endpoint.toList = false by decide⟩

/-- What is given for a setting is in the file, or as initially. -/
theorem Given.takes {dir : String} {file : Option SettingsFile} {s : Settings} (h : Given dir file s)
    {α : Type} (k : Key α) : Takes k.decoder (k.get (initial dir)) (k.inFile? file) (k.get s) := by
  cases h with
  | none => exact .absent
  | @file file text s htext h =>
    rw [Key.inFile?, Option.bind_some, htext, Option.bind_some]
    simp only [Decoder.ofText] at h
    cases hdecoded : decoder dir (Json.Document.ofText text).value with
    | error e => simp only [hdecoded] at h; cases h
    | ok found =>
      simp only [hdecoded] at h
      split at h
      · obtain rfl := Except.ok.inj h
        exact takes_of_decoder hdecoded k
      · cases h

section Load
variable {dir : String} {file : Option SettingsFile} {s : Settings} {e : SettingsError}

private theorem load_of_given (h : Given dir file s) :
    file.elim (.ok (initial dir)) (load dir) = (validate s).map fun _ => s := by
  cases h with
  | none => exact (validated_eq_ok_iff.mpr ⟨isSound_initial dir, rfl⟩).symm
  | file htext h => simp only [Option.elim_some, load, htext, h]

private theorem given_or (dir : String) (file : Option SettingsFile) : (∃ s, Given dir file s) ∨
    ∃ e, file.elim (.ok (initial dir)) (load dir) = .error e ∧ GivenFails dir file e := by
  cases file with
  | none => exact .inl ⟨_, .none⟩
  | some f =>
    cases htext : f.text with
    | none => exact .inr ⟨_, by simp only [Option.elim_some, load, htext], .unreadable rfl htext⟩
    | some text =>
      cases h : Decoder.ofText (decoder dir) text with
      | error defect =>
        exact .inr ⟨_, by simp only [Option.elim_some, load, htext, h], .undecodable rfl htext h⟩
      | ok s => exact .inl ⟨s, .file htext h⟩

private theorem load_eq_ok_iff :
    file.elim (.ok (initial dir)) (load dir) = .ok s ↔ Given dir file s ∧ s.IsSound := by
  constructor
  · intro h
    obtain ⟨base, hbase⟩ | ⟨e, he, -⟩ := given_or dir file
    · rw [load_of_given hbase] at h
      obtain ⟨hsound, rfl⟩ := validated_eq_ok_iff.mp h
      exact ⟨hbase, hsound⟩
    · rw [he] at h
      cases h
  · rintro ⟨hgiven, hsound⟩
    rw [load_of_given hgiven]
    exact validated_eq_ok_iff.mpr ⟨hsound, rfl⟩

private theorem load_eq_error_iff :
    file.elim (.ok (initial dir)) (load dir) = .error e ↔ GivenFails dir file e := by
  constructor
  · intro h
    obtain ⟨base, hbase⟩ | ⟨e', he, hfails⟩ := given_or dir file
    · rw [load_of_given hbase] at h
      exact .unsound hbase (validated_eq_error_iff.mp h)
    · rw [he] at h
      obtain rfl := Except.error.inj h
      exact hfails
  · rintro (⟨rfl, h⟩ | ⟨rfl, htext, h⟩ | ⟨hbase, h⟩)
    · simp only [Option.elim_some, load, h]
    · simp only [Option.elim_some, load, htext, h]
    · rw [load_of_given hbase]
      exact validated_eq_error_iff.mpr h

end Load

section Override
variable {env : Environment} {base s : Settings} {e : SettingsError}

private theorem override_eq_ok_iff : override env base = .ok s ↔ PortReads env ∧ Overridden env base s := by
  constructor
  · intro h
    refine ⟨fun text henv => ?_, overridden_of_override h⟩
    by_contra hnone
    rw [override_of_unreadable henv fun port hport => hnone ⟨port, hport⟩] at h
    cases h
  · rintro ⟨hport, hover⟩
    obtain ⟨s', hs'⟩ := exists_override hport base
    rw [hs', hover.unique (overridden_of_override hs')]

private theorem override_eq_error_iff : override env base = .error e ↔
    ∃ text, env "DOCSMITH_PORT" = some text ∧ (∀ port, ¬IsPort text.toList port) ∧ e = .invalidPort text := by
  constructor
  · intro h
    by_cases hport : PortReads env
    · obtain ⟨s, hs⟩ := exists_override hport base
      rw [hs] at h
      cases h
    · simp only [PortReads, not_forall, not_exists] at hport
      obtain ⟨text, henv, hnone⟩ := hport
      rw [override_of_unreadable henv hnone] at h
      exact ⟨text, henv, hnone, (Except.error.inj h).symm⟩
  · rintro ⟨text, henv, hnone, rfl⟩
    exact override_of_unreadable henv hnone base

end Override

private theorem resolve_eq (dir : String) (file : Option SettingsFile) (env : Environment) :
    resolve dir file env = (file.elim (.ok (initial dir)) (load dir) >>= fun base =>
      override env base >>= fun s => (validate s).map fun _ => s) := by
  have hlast : ∀ s, ((validate s).map fun _ => s) = (validate s >>= fun _ => .ok s) := fun s => by
    cases validate s <;> rfl
  simp only [hlast]
  cases file <;> rfl

/-- Settings come out just if every stage lets them pass, and then they are those of the last layer. -/
theorem resolve_eq_ok_iff {dir : String} {file : Option SettingsFile} {env : Environment} {s : Settings} :
    resolve dir file env = .ok s ↔
      ∃ base, Given dir file base ∧ base.IsSound ∧ PortReads env ∧ Overridden env base s ∧ s.IsSound := by
  simp only [resolve_eq, bind_eq_ok_iff, load_eq_ok_iff, override_eq_ok_iff, validated_eq_ok_iff]
  constructor
  · rintro ⟨base, ⟨hbase, hsound⟩, s', ⟨hport, hover⟩, hsound', rfl⟩
    exact ⟨base, hbase, hsound, hport, hover, hsound'⟩
  · rintro ⟨base, hbase, hsound, hport, hover, hsound'⟩
    exact ⟨base, ⟨hbase, hsound⟩, s, ⟨hport, hover⟩, hsound', rfl⟩

/-- The error is that of the first stage that fails. -/
theorem resolve_eq_error_iff {dir : String} {file : Option SettingsFile} {env : Environment}
    {e : SettingsError} : resolve dir file env = .error e ↔ FirstFailure dir file env e := by
  simp only [resolve_eq, bind_eq_error_iff, load_eq_error_iff, load_eq_ok_iff, override_eq_error_iff,
    override_eq_ok_iff, validated_eq_error_iff]
  constructor
  · rintro (h | ⟨base, ⟨hbase, hsound⟩, ⟨text, henv, hnone, rfl⟩ | ⟨s, ⟨hport, hover⟩, h⟩⟩)
    · exact .given h
    · exact .port hbase hsound henv hnone
    · exact .together hbase hsound hport hover h
  · rintro (h | ⟨hbase, hsound, henv, hnone⟩ | ⟨hbase, hsound, hport, hover, h⟩)
    · exact .inl h
    · exact .inr ⟨_, ⟨hbase, hsound⟩, .inl ⟨_, henv, hnone, rfl⟩⟩
    · exact .inr ⟨_, ⟨hbase, hsound⟩, .inr ⟨_, ⟨hport, hover⟩, h⟩⟩

/-- Settings resolve exactly if what is given is sound by itself, a port number in the environment can be
read, and what the environment makes of it is sound; else the first of these that fails is the error. A
setting of the result is what the environment says, or else what the file gives, or else as initially. -/
theorem resolve_layers (dir : String) (file : Option SettingsFile) (env : Environment) :
    (∀ e, resolve dir file env = .error e ↔ FirstFailure dir file env e) ∧
    (∀ s, resolve dir file env = .ok s ↔
      ∃ base, Given dir file base ∧ base.IsSound ∧ PortReads env ∧ Overridden env base s ∧ s.IsSound) ∧
    ∀ s, resolve dir file env = .ok s →
      (∀ {α : Type} (k : Key α), ∃ below, Takes k.decoder (k.get (initial dir)) (k.inFile? file) below ∧
        k.get s = (k.override? env).getD below) ∧
      1 ≤ s.generator.concurrency ∧ s.generator.batch.concurrency = s.generator.concurrency ∧
      Text.allBlank s.generator.endpoint.toList = false := by
  refine ⟨fun e => resolve_eq_error_iff, fun s => resolve_eq_ok_iff, fun s h => ?_⟩
  obtain ⟨base, hbase, -, -, hover, hsound⟩ := resolve_eq_ok_iff.mp h
  exact ⟨fun k => ⟨k.get base, hbase.takes k, hover k⟩, hsound.concurrency,
    Nat.max_eq_left hsound.concurrency, hsound.endpoint⟩

/-- One section is given by an array and one by an object, neither of them in full. An endpoint that the
environment gives comes too late for a blank one in the file. -/
theorem resolve_layers_sections :
    (∃ s, resolve "history" (some ⟨"settings.json",
        some "\x7b\"server\":[\"localhost\"],\"generator\":\x7b\"concurrency\":2\x7d\x7d"⟩)
        (fun name => if name = "DOCSMITH_PORT" then some "+80" else none) = .ok s ∧
      s.server = ⟨"localhost", 80⟩ ∧ s.generator.batch.concurrency = 2) ∧
    resolve "history" (some ⟨"settings.json", some "\x7b\"generator\":[\" \"]\x7d"⟩)
      (fun name => if name = "DOCSMITH_ENDPOINT" then some "http://localhost" else none) =
        .error .blankEndpoint := by
  have h : resolve "history" (some ⟨"settings.json",
      some "\x7b\"server\":[\"localhost\"],\"generator\":\x7b\"concurrency\":2\x7d\x7d"⟩)
      (fun name => if name = "DOCSMITH_PORT" then some "+80" else none) =
        .ok ⟨⟨"localhost", 80⟩, { concurrency := 2 }, ⟨"history"⟩⟩ := by
    decide +kernel
  have hblank : Decoder.ofText (decoder "history") "\x7b\"generator\":[\" \"]\x7d" =
      .ok ⟨{}, { endpoint := " " }, ⟨"history"⟩⟩ := by
    decide +kernel
  refine ⟨⟨_, h, rfl, ((resolve_layers _ _ _).2.2 _ h).2.2.1⟩, ((resolve_layers _ _ _).1 _).mpr ?_⟩
  exact .given (.unsound (.file rfl hblank) (.blankEndpoint (by decide) (by decide)))

end Settings
end DocComments
