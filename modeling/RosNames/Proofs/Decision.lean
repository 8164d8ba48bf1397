import RosNames.Cli.Command
import RosNames.Proofs.Settling

/-!
# What a run decides

Every name that is checked ends in one of three ways: it is valid, it is too long and excused with a
warning, or it is rejected. A run that is not interrupted counts the rejected names and logs one
warning for each that is excused, so the three counts add up to the number of names, and whether any
name was rejected decides about the status of the command.
-/

namespace RosNames.Cli

namespace Settings

variable (s : Settings) (name : String)

def verdict : Validation s.kind := s.kind.validate (Utf8.encode name)

def report : Report := s.kind.report (Utf8.encode name)

def excused : Bool := (s.verdict name).isTooLong && s.allowTooLong

def accepts : Bool := (s.verdict name).isValid || s.excused name

def nameEvents : List Event :=
  traceEvent name (s.report name) :: if s.excused name then [warnEvent name (s.report name)] else []

theorem not_excused_of_isValid (h : (s.verdict name).isValid) : s.excused name = false := by
  have hvalid := (Outcome.isValid_iff _).mp h
  rw [excused, Validation.isTooLong, hvalid]
  rfl

theorem checkName_eq : s.checkName name =
    match s.block name (s.report name) with
    | .error written => .error ⟨written, [traceEvent name (s.report name)]⟩
    | .ok output =>
      if (s.verdict name).isValid then .ok ⟨output, 0, [traceEvent name (s.report name)]⟩
      else if s.excused name then
        .ok ⟨output, 0, [traceEvent name (s.report name), warnEvent name (s.report name)]⟩
      else .ok ⟨output, 1, [traceEvent name (s.report name)]⟩ := rfl

theorem checkName_of_block {output : String} (h : s.block name (s.report name) = .ok output) :
    s.checkName name = .ok ⟨output, if s.accepts name then 0 else 1, s.nameEvents name⟩ := by
  simp only [checkName_eq, h]
  by_cases hvalid : (s.verdict name).isValid
  · have hexcused := s.not_excused_of_isValid name hvalid
    simp [accepts, nameEvents, hvalid, hexcused]
  · by_cases hexcused : s.excused name
    · simp [accepts, nameEvents, hvalid, hexcused]
    · simp [accepts, nameEvents, hvalid, hexcused]

/-- A name that is checked adds its block, its events and, unless it is accepted, one to the number
of the rejected. -/
theorem checkName_eq_ok_iff (t : Summary) : s.checkName name = .ok t ↔
    ∃ output, s.block name (s.report name) = .ok output ∧
      t = ⟨output, if s.accepts name then 0 else 1, s.nameEvents name⟩ := by
  cases h : s.block name (s.report name) with
  | error written => simp [checkName_eq, h]
  | ok output => simp [s.checkName_of_block name h, eq_comm (a := t)]

theorem checkNames_cons_eq_ok_iff (names : List String) (t : Summary) :
    s.checkNames (name :: names) = .ok t ↔
      ∃ a b, s.checkName name = .ok a ∧ s.checkNames names = .ok b ∧ t = a.append b := by
  rw [checkNames]
  cases s.checkName name with
  | error i => simp
  | ok a =>
    cases s.checkNames names with
    | error i => simp
    | ok b => simpa using eq_comm

def blocks (names : List String) : Except String (List String) :=
  names.mapM fun name => s.block name (s.report name)

def summary (names outputs : List String) : Summary :=
  ⟨String.join outputs, names.countP (!s.accepts ·), names.flatMap s.nameEvents⟩

theorem summary_cons (output : String) (names outputs : List String) :
    s.summary (name :: names) (output :: outputs) =
      Summary.append ⟨output, if s.accepts name then 0 else 1, s.nameEvents name⟩
        (s.summary names outputs) := by
  have hcount : (name :: names).countP (!s.accepts ·) =
      (if s.accepts name then 0 else 1) + names.countP (!s.accepts ·) := by
    rw [List.countP_cons, Nat.add_comm]
    cases s.accepts name <;> rfl
  simp only [summary, Summary.append, hcount, String.join_cons, List.flatMap_cons]

theorem blocks_cons_eq_ok_iff (names outputs : List String) :
    s.blocks (name :: names) = .ok outputs ↔ ∃ output rest,
      s.block name (s.report name) = .ok output ∧ s.blocks names = .ok rest ∧
        outputs = output :: rest := by
  simp only [blocks, List.mapM_cons, bind_eq_ok_iff, pure, Except.pure, ok_eq_ok_iff,
    exists_and_left]

/-- A run over the names adds up what each of them comes to. -/
theorem checkNames_eq_ok_iff (names : List String) (t : Summary) :
    s.checkNames names = .ok t ↔ ∃ outputs, s.blocks names = .ok outputs ∧
      t = s.summary names outputs := by
  induction names generalizing t with
  | nil => simp [checkNames, blocks, summary, pure, Except.pure, eq_comm]
  | cons name names ih =>
    have hblocks := s.blocks_cons_eq_ok_iff name names
    rw [checkNames_cons_eq_ok_iff]
    constructor
    · rintro ⟨a, b, ha, hb, rfl⟩
      obtain ⟨output, houtput, rfl⟩ := (s.checkName_eq_ok_iff name a).mp ha
      obtain ⟨rest, hrest, rfl⟩ := (ih b).mp hb
      exact ⟨output :: rest, (hblocks _).mpr ⟨output, rest, houtput, hrest, rfl⟩,
        (s.summary_cons name output names rest).symm⟩
    · rintro ⟨outputs, houtputs, rfl⟩
      obtain ⟨output, rest, houtput, hrest, rfl⟩ := (hblocks outputs).mp houtputs
      exact ⟨_, _, (s.checkName_eq_ok_iff name _).mpr ⟨output, houtput, rfl⟩,
        (ih _).mpr ⟨rest, hrest, rfl⟩, s.summary_cons name output names rest⟩

theorem valid_or_warned_or_rejected :
    (if (s.verdict name).isValid then 1 else 0) +
      (s.nameEvents name).countP (fun e => e.level = .warn) +
      (if !s.accepts name then 1 else 0) = 1 := by
  by_cases hvalid : (s.verdict name).isValid
  · have hexcused := s.not_excused_of_isValid name hvalid
    simp [accepts, nameEvents, hvalid, hexcused, traceEvent]
  · by_cases hexcused : s.excused name
    · simp [accepts, nameEvents, hvalid, hexcused, traceEvent, warnEvent]
    · simp [accepts, nameEvents, hvalid, hexcused, traceEvent]

theorem countP_names (names : List String) :
    names.countP (fun name => (s.verdict name).isValid) +
      (names.flatMap s.nameEvents).countP (fun e => e.level = .warn) +
      names.countP (!s.accepts ·) = names.length := by
  induction names with
  | nil => rfl
  | cons name names ih =>
    have hname := s.valid_or_warned_or_rejected name
    rw [List.flatMap_cons, List.countP_append, List.countP_cons, List.countP_cons, List.length_cons]
    omega

theorem countP_tallyEvents (rejected total : Nat) :
    (tallyEvents rejected total).countP (fun e => e.level = .warn) = 0 := by
  unfold tallyEvents
  split <;> rfl

/-- A run that ends with a summary accounts for every name. -/
structure Accounts (t : Summary) : Prop where
  rejected : t.rejected = s.names.countP (!s.accepts ·)
  events : t.events = s.names.flatMap s.nameEvents ++
    if 0 < t.rejected then
      [{ level := .debug
         message := t.rejected.repr ++ " of " ++ s.names.length.repr ++ " names rejected" }]
    else []
  total : s.names.countP (fun name => (s.verdict name).isValid) +
    t.events.countP (fun e => e.level = .warn) + t.rejected = s.names.length

theorem run_eq_ok_iff (t : Summary) : s.run = .ok t ↔ ∃ outputs, s.blocks s.names = .ok outputs ∧
    t = {
      output := String.join outputs
      rejected := s.names.countP (!s.accepts ·)
      events := s.names.flatMap s.nameEvents ++
        tallyEvents (s.names.countP (!s.accepts ·)) s.names.length } := by
  have hbind : s.run = s.checkNames s.names >>= fun t =>
      .ok { t with events := t.events ++ tallyEvents t.rejected s.names.length } := by
    rw [run]
    cases s.checkNames s.names <;> rfl
  simp only [hbind, bind_eq_ok_iff, checkNames_eq_ok_iff, ok_eq_ok_iff]
  constructor
  · rintro ⟨t, ⟨outputs, houtputs, rfl⟩, rfl⟩
    exact ⟨outputs, houtputs, rfl⟩
  · rintro ⟨outputs, houtputs, rfl⟩
    exact ⟨_, ⟨outputs, houtputs, rfl⟩, rfl⟩

variable {s}

theorem accounts_of_run {t : Summary} (h : s.run = .ok t) : s.Accounts t := by
  obtain ⟨outputs, -, rfl⟩ := (s.run_eq_ok_iff t).mp h
  have htotal := s.countP_names s.names
  exact {
    rejected := rfl
    events := rfl
    total := by rwa [List.countP_append, countP_tallyEvents, Nat.add_zero] }

theorem Accounts.rejected_pos_iff {t : Summary} (h : s.Accounts t) :
    0 < t.rejected ↔ ∃ name ∈ s.names, ¬ s.accepts name := by
  simp [h.rejected, List.countP_pos_iff]

theorem accepts_iff_of_allowTooLong (h : s.allowTooLong) (name : String) :
    s.accepts name ↔ (s.verdict name).isValidIgnoringLength := by
  rw [accepts, excused, h, Bool.and_true]
  rfl

theorem blocks_of_json (h : s.json) (names : List String) :
    s.blocks names = .ok (names.map fun name => jsonLine name (s.report name)) := by
  induction names with
  | nil => rfl
  | cons name names ih =>
    have hblock := block_of_json h name (s.report name)
    exact (s.blocks_cons_eq_ok_iff name names _).mpr ⟨_, _, hblock, ih, rfl⟩

theorem exists_run_of_json (h : s.json) : ∃ t, s.run = .ok t :=
  ⟨_, (s.run_eq_ok_iff _).mpr ⟨_, blocks_of_json h s.names, rfl⟩⟩

end Settings

/-- The status tells whether the arguments were refused or a name was rejected. -/
structure Completion.Decides (c : Completion) (args : List Bytes) : Prop where
  refused_iff : c.status = 2 ↔ ∃ r, Settings.ofArguments args = .error (.refused r)
  rejected_iff : c.status = 1 ↔ ∃ s, Settings.ofArguments args = .ok s ∧
    ∃ name ∈ s.names, ¬ s.accepts name
  accepted_iff : c.status = 0 ↔ Settings.ofArguments args = .error .help ∨
    Settings.ofArguments args = .error .version ∨
    ∃ s, Settings.ofArguments args = .ok s ∧ ∀ name ∈ s.names, s.accepts name
  lenient : ∀ s, Settings.ofArguments args = .ok s → s.allowTooLong →
    (c.status = 0 ↔ ∀ name ∈ s.names, (s.verdict name).isValidIgnoringLength)

theorem status_of_run (f : Log.Filter) {s : Settings} {t : Summary} (h : s.run = .ok t) :
    ((Completion.ofRun f s.run).status = 0 ↔ ∀ name ∈ s.names, s.accepts name) ∧
    ((Completion.ofRun f s.run).status = 1 ↔ ∃ name ∈ s.names, ¬ s.accepts name) ∧
    (Completion.ofRun f s.run).status ≠ 2 := by
  have hpos := (Settings.accounts_of_run h).rejected_pos_iff
  have hall : (∀ name ∈ s.names, s.accepts name) ↔ ¬ 0 < t.rejected := by
    rw [hpos]
    simp
  rw [h, hall, ← hpos, Completion.ofRun]
  by_cases hrejected : 0 < t.rejected
  · simp [hrejected]
  · simp [hrejected]

theorem decides_command (logSetting : Option String) (args : List Bytes)
    (h : ∀ s, Settings.ofArguments args = .ok s → ∃ t, s.run = .ok t) :
    (command logSetting args).Decides args := by
  unfold command
  cases hargs : Settings.ofArguments args with
  | error stop =>
    cases stop with
    | help => constructor <;> simp [hargs, Completion.ofStop]
    | version => constructor <;> simp [hargs, Completion.ofStop]
    | refused r => constructor <;> simp [hargs, Completion.ofStop]
  | ok s =>
    obtain ⟨t, ht⟩ := h s hargs
    obtain ⟨hzero, hone, htwo⟩ := status_of_run (.ofSetting logSetting) ht
    exact {
      refused_iff := by simpa [hargs] using htwo
      rejected_iff := by simpa [hargs] using hone
      accepted_iff := by simpa [hargs] using hzero
      lenient := by
        intro s' hs' hallow
        obtain rfl := Except.ok.inj (hargs.symm.trans hs')
        simpa only [Settings.accepts_iff_of_allowTooLong hallow] using hzero }

/-- A run that is not interrupted accounts for its names, and a command whose run is not
interrupted exits with the status that they deserve. -/
theorem run_accounts_and_command_decides :
    (∀ s t, Settings.run s = .ok t → s.Accounts t) ∧
    ∀ logSetting args, (∀ s, Settings.ofArguments args = .ok s → ∃ t, s.run = .ok t) →
      (command logSetting args).Decides args :=
  ⟨fun _ _ h => Settings.accounts_of_run h, decides_command⟩

/-- One of the names `/a` and `b` is rejected. -/
theorem status_of_a_valid_and_a_relative_name :
    let s : Settings := ⟨.topicName, true, false, ["/a", "b"]⟩
    (∃ t, s.run = .ok t ∧ t.rejected = 1) ∧
    (command none (["--json", "/a", "b"].map Utf8.encode)).status = 1 := by
  intro s
  obtain ⟨haccounts, hdecides⟩ := run_accounts_and_command_decides
  have hargs : Settings.ofArguments (["--json", "/a", "b"].map Utf8.encode) = .ok s := by rfl
  obtain ⟨t, ht⟩ := Settings.exists_run_of_json (s := s) rfl
  have hdecided := hdecides none (["--json", "/a", "b"].map Utf8.encode) (by
    intro s' hs'
    obtain rfl := Except.ok.inj (hargs.symm.trans hs')
    exact ⟨t, ht⟩)
  refine ⟨⟨t, ht, (haccounts s t ht).rejected.trans (by decide)⟩, ?_⟩
  exact hdecided.rejected_iff.mpr ⟨s, hargs, "b", by simp [s], by decide⟩

end RosNames.Cli
