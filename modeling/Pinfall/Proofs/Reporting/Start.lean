import Pinfall.Proofs.Number.ExactValue
import Pinfall.Proofs.Text.Trimming
import Pinfall.Reporting.Start

/-!
# How error reporting is started

Without settings, error reporting is started by the variables of the environment: an address
that is not blank starts it once, and whatever else they hold, the call that does so is in
order and at most one warning is logged.  Settings that are given are used as they are, and
then the variables have no say.
-/

namespace Pinfall.Reporting

variable {vars : Variables} {settings : Settings} {record : Log.Record} {name : String}
  {raw : Option String} {default : Number.Binary64}

/-! ## The sample rate -/

/-- A setting that is not used is warned of, and nothing else is logged. -/
theorem readRate_cases (name : String) (raw : Option String) (default : Number.Binary64) :
    (readRate name raw default).2 = [] ∨
      ∃ text error, raw = some text ∧
        readRate name raw default = (default, [rateWarning name text error default]) := by
  unfold readRate
  split
  next => exact Or.inl rfl
  next text =>
    split
    next => exact Or.inl rfl
    next =>
      split
      next => exact Or.inl rfl
      next error _ => exact Or.inr ⟨text, error, rfl, rfl⟩

theorem length_log_readRate_le (name : String) (raw : Option String)
    (default : Number.Binary64) : (readRate name raw default).2.length ≤ 1 := by
  rcases readRate_cases name raw default with hnone | ⟨text, error, -, hread⟩
  · rw [hnone]
    decide
  · rw [hread]
    exact Nat.le_refl 1

theorem exists_eq_rateWarning_of_mem (h : record ∈ (readRate name raw default).2) :
    ∃ text error, raw = some text ∧ record = rateWarning name text error default := by
  rcases readRate_cases name raw default with hnone | ⟨text, error, hraw, hread⟩
  · rw [hnone] at h
    contradiction
  · rw [hread] at h
    exact ⟨text, error, hraw, List.mem_singleton.mp h⟩

theorem source_of_mem_readRate (h : record ∈ (readRate name raw default).2) :
    record.source = .settings := by
  obtain ⟨text, error, -, rfl⟩ := exists_eq_rateWarning_of_mem h
  rfl

theorem inUnitInterval_rateOf {text : String} {rate : Number.Binary64}
    (h : rateOf text = .ok rate) : rate.inUnitInterval = true := by
  unfold rateOf at h
  split at h
  next => contradiction
  next =>
    split at h
    next hrate =>
      obtain rfl := Except.ok.inj h
      exact hrate
    next => contradiction

theorem inUnitInterval_readRate (name : String) (raw : Option String)
    (hdefault : default.inUnitInterval = true) :
    (readRate name raw default).1.inUnitInterval = true := by
  unfold readRate
  split
  next => exact hdefault
  next =>
    split
    next => exact hdefault
    next =>
      split
      next hrate => exact inUnitInterval_rateOf hrate
      next => exact hdefault

theorem inUnitInterval_zero : (Number.Binary64.zero false).inUnitInterval = true := by
  decide

/-! ## Starting with settings -/

/-- Without an address nothing is called. -/
theorem startWith_of_none (h : settings.dsn = none) :
    ∃ closing, startWith settings = ⟨false, [], [closing]⟩ ∧ closing.source = .reporting ∧
      closing.level = .debug := by
  rw [startWith, h]
  exact ⟨_, rfl, rfl, rfl⟩

/-- With an address the service is called once, with the fields of the settings. -/
theorem startWith_of_some {dsn : String} (h : settings.dsn = some dsn) :
    ∃ call closing, startWith settings = ⟨true, [call], [closing]⟩ ∧
      (call.dsn = dsn ∧ call.environment = settings.environment ∧
        call.sampleRate = settings.sampleRate) ∧
      closing.source = .reporting ∧ closing.level = .info := by
  rw [startWith, h]
  exact ⟨_, _, rfl, ⟨rfl, rfl, rfl⟩, rfl, rfl⟩

theorem source_of_mem_startWith (h : record ∈ (startWith settings).log) :
    record.source = .reporting := by
  cases hdsn : settings.dsn with
  | none =>
    obtain ⟨closing, hstart, hsource, -⟩ := startWith_of_none hdsn
    rw [hstart] at h
    rw [List.mem_singleton.mp h, hsource]
  | some dsn =>
    obtain ⟨call, closing, hstart, -, hsource, -⟩ := startWith_of_some hdsn
    rw [hstart] at h
    rw [List.mem_singleton.mp h, hsource]

theorem source_ne_of_mem_start (h : record ∈ (start none vars).log) :
    record.source ≠ .commandLine := by
  rcases List.mem_append.mp h with hrate | hstart
  · rw [source_of_mem_readRate hrate]
    decide
  · rw [source_of_mem_startWith hstart]
    decide

/-! ## Starting by the variables -/

/-- What is read from a variable that holds a text or nothing: the text without the blanks at
its ends, if anything is left then. -/
inductive Reads (held : Option String) : Option String → Prop where
  | nothing (hblank : ∀ raw, held = some raw → Text.isAllBlank raw = true) : Reads held none
  | text {raw text : String} (hraw : held = some raw) (hblank : Text.isAllBlank raw = false)
      (htrim : Text.IsTrimOf text raw) (hne : text ≠ "") : Reads held (some text)

theorem reads_bind_trimmed? (held : Option String) : Reads held (held.bind Text.trimmed?) := by
  cases held with
  | none => exact Reads.nothing fun raw h => by contradiction
  | some raw =>
    rcases Text.trimmed?_cases raw with ⟨hblank, hnone⟩ | ⟨hblank, text, hsome, htrim, hne⟩
    · rw [Option.bind_some, hnone]
      apply Reads.nothing
      intro other hother
      obtain rfl := Option.some.inj hother
      exact hblank
    · rw [Option.bind_some, hsome]
      exact Reads.text rfl hblank htrim hne

/-- Something is read from a variable when it holds more than blanks. -/
theorem Reads.isSome_iff {held value : Option String} (h : Reads held value) :
    value.isSome = true ↔ ∃ raw, held = some raw ∧ Text.isAllBlank raw = false := by
  cases h with
  | nothing hblank =>
    refine ⟨fun h => by contradiction, ?_⟩
    rintro ⟨raw, hraw, hnot⟩
    rw [hblank raw hraw] at hnot
    contradiction
  | text hraw hblank => exact ⟨fun _ => ⟨_, hraw, hblank⟩, fun _ => rfl⟩

/-- A warning that the sample rate in the variables is not used. -/
def IsRateWarning (vars : Variables) (warning : Log.Record) : Prop :=
  warning.level = .warning ∧ ∃ text error, vars.sampleRate = some text ∧
    warning = rateWarning sampleRateVariable text error (.zero false)

/-- A start by the variables of the environment. -/
structure IsStartBy (vars : Variables) (started : Started) : Prop where
  enabled_iff : started.enabled = true ↔
    ∃ raw, vars.dsn = some raw ∧ Text.isAllBlank raw = false
  length_calls : started.calls.length = if started.enabled then 1 else 0
  calls_read : ∀ call ∈ started.calls, Reads vars.dsn (some call.dsn) ∧
    Reads vars.environment call.environment ∧
    ∃ rate, call.sampleRate.value? = some rate ∧ 0 ≤ rate ∧ rate ≤ 1
  log_eq : ∃ warnings closing, started.log = warnings ++ [closing] ∧
    warnings.length ≤ 1 ∧ (∀ warning ∈ warnings, IsRateWarning vars warning) ∧
    closing.source = .reporting ∧ closing.level = if started.enabled then .info else .debug

/-- The settings that are read from the variables. -/
structure AreReadFrom (settings : Settings) (warnings : List Log.Record) (vars : Variables) :
    Prop where
  dsn : Reads vars.dsn settings.dsn
  environment : Reads vars.environment settings.environment
  sampleRate : ∃ rate, settings.sampleRate.value? = some rate ∧ 0 ≤ rate ∧ rate ≤ 1
  length_warnings_le : warnings.length ≤ 1
  isRateWarning_of_mem : ∀ warning ∈ warnings, IsRateWarning vars warning

theorem Variables.areReadFrom (vars : Variables) :
    AreReadFrom vars.settings.1 vars.settings.2 vars where
  dsn := reads_bind_trimmed? vars.dsn
  environment := reads_bind_trimmed? vars.environment
  sampleRate := Number.Binary64.inUnitInterval_iff.mp
    (inUnitInterval_readRate sampleRateVariable vars.sampleRate inUnitInterval_zero)
  length_warnings_le := length_log_readRate_le sampleRateVariable vars.sampleRate (.zero false)
  isRateWarning_of_mem := by
    intro warning hwarning
    obtain ⟨text, error, hraw, rfl⟩ := exists_eq_rateWarning_of_mem hwarning
    exact ⟨rfl, text, error, hraw, rfl⟩

theorem isStartBy_start (vars : Variables) : IsStartBy vars (start none vars) := by
  have hread := vars.areReadFrom
  have henabled := hread.dsn.isSome_iff
  cases hdsn : vars.settings.1.dsn with
  | none =>
    obtain ⟨closing, hstart, hsource, hlevel⟩ := startWith_of_none hdsn
    have hstarted : start none vars = ⟨false, [], vars.settings.2 ++ [closing]⟩ := by
      simp only [start, hstart]
    rw [hdsn] at henabled
    rw [hstarted]
    exact
      { enabled_iff := henabled
        length_calls := rfl
        calls_read := fun call hcall => by contradiction
        log_eq := ⟨_, closing, rfl, hread.length_warnings_le, hread.isRateWarning_of_mem,
          hsource, hlevel⟩ }
  | some dsn =>
    obtain ⟨call, closing, hstart, ⟨hcall, henvironment, hrate⟩, hsource, hlevel⟩ :=
      startWith_of_some hdsn
    have hstarted : start none vars = ⟨true, [call], vars.settings.2 ++ [closing]⟩ := by
      simp only [start, hstart]
    rw [hdsn] at henabled
    rw [hstarted]
    refine
      { enabled_iff := henabled
        length_calls := rfl
        calls_read := ?_
        log_eq := ⟨_, closing, rfl, hread.length_warnings_le, hread.isRateWarning_of_mem,
          hsource, hlevel⟩ }
    intro other hother
    obtain rfl := List.mem_singleton.mp hother
    rw [hcall, henvironment, hrate, ← hdsn]
    exact ⟨hread.dsn, hread.environment, hread.sampleRate⟩

/-- By the variables of the environment, reporting is started with one call if the address in
them is not blank, and otherwise not at all; the call is in order whatever the variables hold,
and a record of the start closes the log behind at most one warning.  Settings that are given
are passed on as they are, the variables have no say then, and the service is called just when
the settings have an address. -/
theorem start_isInOrder :
    (∀ vars : Variables, IsStartBy vars (start none vars)) ∧
      ∀ (settings : Settings) (vars : Variables),
        (∀ other : Variables, start (some settings) vars = start (some settings) other) ∧
        ((start (some settings) vars).calls ≠ [] ↔ settings.dsn ≠ none) ∧
        ((start (some settings) vars).enabled = true ↔ settings.dsn ≠ none) ∧
        ∀ dsn, settings.dsn = some dsn →
          ∃ call, (start (some settings) vars).calls = [call] ∧ call.dsn = dsn ∧
            call.environment = settings.environment ∧ call.sampleRate = settings.sampleRate := by
  refine ⟨isStartBy_start, ?_⟩
  intro settings vars
  refine ⟨fun _ => rfl, ?_⟩
  change ((startWith settings).calls ≠ [] ↔ _) ∧ ((startWith settings).enabled = true ↔ _) ∧
    ∀ dsn, settings.dsn = some dsn → ∃ call, (startWith settings).calls = [call] ∧ _
  cases hdsn : settings.dsn with
  | none =>
    obtain ⟨closing, hstart, -⟩ := startWith_of_none hdsn
    rw [hstart]
    simp
  | some dsn =>
    obtain ⟨call, closing, hstart, ⟨hcall, henvironment, hrate⟩, -⟩ := startWith_of_some hdsn
    rw [hstart]
    refine ⟨by simp, by simp, ?_⟩
    intro other hother
    obtain rfl := Option.some.inj hother
    exact ⟨call, rfl, hcall, henvironment, hrate⟩

/-- Empty settings are settings too. -/
example : (start (some ⟨none, none, .zero false⟩) ⟨some "https://key@host/1", none, none⟩).calls =
    [] := rfl

end Pinfall.Reporting
