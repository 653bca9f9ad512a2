import ShellHost.CommandLine.Program
import ShellHost.Proofs.Lines.Framing
import ShellHost.Proofs.Settings.Resaving

/-!
# Starting on any disk

Whatever stands in the place of the settings file, the program starts: with the settings of the file if they can be loaded,
and with the usual ones otherwise (`settings_at_start`). Only the arguments can keep it from serving, by a name that is no
environment's, and a text for the log filter that cannot be read at all (`served_on_any_disk`). Such a text may be the log
level of the settings, too, and then it is the settings file that ends the program (`ended_by_level`). All this holds
whatever values of fields the log can be filtered by.
-/

namespace ShellHost

open Json

/-! ## The log filter -/

/-- A filter cannot be read at all if the first text cannot, or if the first is no filter and the second cannot. -/
theorem LogFilter.ofTexts_eq_none_iff (matchable : List Char → Bool) (named said : Option String) :
    ofTexts matchable (named.toList ++ said.toList) = none ↔
      (∃ text ∈ named, parse matchable text = .error .insideCharacter) ∨
        (∀ text ∈ named, parse matchable text = .error .malformed) ∧
          ∃ text ∈ said, parse matchable text = .error .insideCharacter := by
  have hsaid : ofTexts matchable said.toList = none ↔
      ∃ text ∈ said, parse matchable text = .error .insideCharacter := by
    cases said with
    | none => simp [ofTexts]
    | some text =>
      rw [Option.toList_some, ofTexts]
      rcases hparse : parse matchable text with (_ | _) | f <;> simp [ofTexts, hparse]
  cases named with
  | none => simpa using hsaid
  | some text =>
    rw [Option.toList_some, List.singleton_append, ofTexts]
    rcases hparse : parse matchable text with (_ | _) | f <;> simp [hsaid, hparse]

namespace Program

/-- Settings change the filter only by their level, and only where no other one is named. -/
theorem filterOf_eq_none_iff (i : Invocation) (a : Arguments) (s : Option Settings) :
    filterOf i a s = none ↔ filterOf i a none = none ∨ a.logLevel = none ∧
      (∀ text ∈ i.logFilter, LogFilter.parse i.matchable text = .error .malformed) ∧
        ∃ level, s.bind Settings.logLevel = some level ∧
          LogFilter.parse i.matchable level = .error .insideCharacter := by
  simp only [filterOf, LogFilter.ofTexts_eq_none_iff]
  cases a.logLevel <;> simp

end Program

/-! ## The settings to start with -/

namespace SettingsFile

variable {f : SettingsFile} {d d' : Disk}

/-- A file that says nothing means the usual settings. -/
theorem load_of_blank (h : d.write f.path blankContent = .ok d') : f.load d' = .ok {} := by
  obtain ⟨hexists, hread⟩ := Disk.read_of_write h
  have hvalue : f.readValue d' = .ok (.object []) := readValue_of_text hread (by rfl)
  exact load_eq_ok_iff.mpr ⟨hexists, _, hvalue, settingsOf_eq_ok_iff.mpr ⟨_, rfl, rfl, by decide⟩⟩

/-- Only a file that is there can be loaded. -/
theorem load_of_missing (h : d.exists? f.path = false) : (f.load d).toOption = none := by
  rw [load, h]
  rfl

theorem loadAtStart_disk (f : SettingsFile) (d : Disk) : (f.loadAtStart d).2 = (f.ensureExists d).2 := by
  rw [loadAtStart]
  rcases f.ensureExists d with ⟨e | created, d'⟩ <;> rfl

/-- The program starts with the settings that can be loaded; a file that is made for it adds none but the usual ones. -/
theorem loadAtStart_eq (f : SettingsFile) (d : Disk) :
    let loaded := (f.loadAtStart d).1.toOption.map Prod.fst
    loaded = (f.load d).toOption ∨ (f.load d).toOption = none ∧ loaded = some {} := by
  have hensured := f.ensured d
  rw [loadAtStart]
  generalize f.ensureExists d = r at hensured
  cases hensured with
  | there =>
    left
    dsimp only
    cases f.load d <;> rfl
  | noParent h => exact .inl (load_of_missing h).symm
  | refused h => exact .inl (load_of_missing h).symm
  | written h _ hwritten =>
    refine .inr ⟨load_of_missing h, ?_⟩
    dsimp only
    rw [load_of_blank hwritten]
    rfl

/-- They are those of the file, or else the usual ones. -/
theorem settings_at_start (f : SettingsFile) (d : Disk) :
    ((f.loadAtStart d).1.toOption.map Prod.fst).getD {} = (f.load d).toOption.getD {} := by
  rcases f.loadAtStart_eq d with hloaded | ⟨hnone, hloaded⟩
  · rw [hloaded]
  · rw [hloaded, hnone]
    rfl

/-- The usual settings have no log level, so one that is read at the start was there. -/
theorem level_at_start (f : SettingsFile) (d : Disk) :
    ((f.loadAtStart d).1.toOption.map Prod.fst).bind Settings.logLevel = (f.load d).toOption.bind Settings.logLevel := by
  rcases f.loadAtStart_eq d with hloaded | ⟨hnone, hloaded⟩
  · rw [hloaded]
  · rw [hloaded, hnone]
    rfl

/-- A log level that was loaded. -/
theorem level_eq_some_iff {level : String} : (f.load d).toOption.bind Settings.logLevel = some level ↔
    ∃ s, f.load d = .ok s ∧ s.logLevel = some level := by
  cases f.load d <;> simp [Except.toOption]

/-- Settings that can be loaded are in range, and so are the usual ones. -/
theorem capacity_at_start (f : SettingsFile) (d : Disk) :
    1 ≤ ((f.load d).toOption.getD {}).eventCapacity ∧ ((f.load d).toOption.getD {}).eventCapacity ≤ 4096 := by
  have husual : 1 ≤ ({} : Settings).eventCapacity ∧ ({} : Settings).eventCapacity ≤ 4096 := by decide
  cases hload : f.load d with
  | error e => exact husual
  | ok s =>
    obtain ⟨-, v, -, hsettings⟩ := load_eq_ok_iff.mp hload
    obtain ⟨-, -, -, hcheck⟩ := settingsOf_eq_ok_iff.mp hsettings
    exact (Settings.check_eq_ok_iff.mp hcheck).1

end SettingsFile

/-! ## The program -/

namespace Program

variable {i : Invocation} {a : Arguments} {f : SettingsFile} {d : Disk}

/-- The arguments name neither a directory for the settings nor an environment. -/
def Unplaced (a : Arguments) : Prop := a.settingsDirectory = none ∧ isEnvironmentName a.environment = false

/-- So they mean no settings file. Others mean one. -/
theorem ofArguments_cases (a : Arguments) (i : Invocation) :
    (Unplaced a ∧ ∃ e, SettingsFile.ofArguments a i = .error e) ∨
      (¬ Unplaced a ∧ ∃ f, SettingsFile.ofArguments a i = .ok f) := by
  rw [Unplaced, SettingsFile.ofArguments]
  cases a.settingsDirectory with
  | some dir => simp
  | none =>
    rw [SettingsFile.ofEnvironment, checkEnvironment]
    cases isEnvironmentName a.environment <;> simp

/-- A text that the log filter is read from. -/
inductive FilterText (i : Invocation) (a : Arguments) (d : Disk) : String → Prop where
  /-- That of the variable. -/
  | ofVariable {text : String} (hset : i.logFilter = some text) : FilterText i a d text
  /-- The level of the arguments, where the variable names no filter. -/
  | ofArguments {text : String} (hunset : ∀ named ∈ i.logFilter, LogFilter.parse i.matchable named = .error .malformed)
      (hsaid : a.logLevel = some text) : FilterText i a d text
  /-- The level of settings that can be loaded, where the arguments have none either. -/
  | ofSettings {text : String} {f : SettingsFile} {s : Settings}
      (hunset : ∀ named ∈ i.logFilter, LogFilter.parse i.matchable named = .error .malformed)
      (hunsaid : a.logLevel = none)
      (hfile : SettingsFile.ofArguments a i = .ok f) (hload : f.load d = .ok s) (hlevel : s.logLevel = some text) :
      FilterText i a d text

/-- The log filter cannot be read at all: a place to cut its text at is inside a character. -/
def FilterUnreadable (i : Invocation) (a : Arguments) (d : Disk) : Prop :=
  ∃ text, FilterText i a d text ∧ LogFilter.parse i.matchable text = .error .insideCharacter

theorem start_of_file (hfile : SettingsFile.ofArguments a i = .ok f) (d : Disk) :
    start i a d = startWith i a f (f.loadAtStart d).1 (f.loadAtStart d).2 := by
  rw [start, hfile]

/-- The filter is read from the text of the variable, then from the level of the arguments or, where they have none, of the
settings that can be loaded. -/
theorem filter_start (i : Invocation) (a : Arguments) (d : Disk) :
    ∃ level : Option String,
      (start i a d).filter = LogFilter.ofTexts i.matchable (i.logFilter.toList ++ (a.logLevel.or level).toList) ∧
      ∀ text, level = some text ↔ ∃ f s, SettingsFile.ofArguments a i = .ok f ∧ f.load d = .ok s ∧
        s.logLevel = some text := by
  rcases hfile : SettingsFile.ofArguments a i with e | f
  · refine ⟨none, ?_, by simp⟩
    rw [start, hfile]
    rfl
  · refine ⟨(f.load d).toOption.bind Settings.logLevel, ?_, fun text => ?_⟩
    · rw [start_of_file hfile, startWith, ← f.level_at_start d]
      rfl
    · rw [SettingsFile.level_eq_some_iff]
      simp

/-- Where the filter cannot be read, the program does not begin to serve, and nowhere else. -/
theorem filter_eq_none_iff : (start i a d).filter = none ↔ FilterUnreadable i a d := by
  obtain ⟨level, hfilter, hlevel⟩ := filter_start i a d
  rw [hfilter, LogFilter.ofTexts_eq_none_iff]
  constructor
  · rintro (⟨text, hset, hcut⟩ | ⟨hunset, text, hsaid, hcut⟩)
    · exact ⟨text, .ofVariable hset, hcut⟩
    · rcases Option.or_eq_some_iff.mp hsaid with hsaid | ⟨hunsaid, hloaded⟩
      · exact ⟨text, .ofArguments hunset hsaid, hcut⟩
      · obtain ⟨f, s, hfile, hload, htext⟩ := (hlevel text).mp hloaded
        exact ⟨text, .ofSettings hunset hunsaid hfile hload htext, hcut⟩
  · rintro ⟨text, htext, hcut⟩
    cases htext with
    | ofVariable hset => exact .inl ⟨text, hset, hcut⟩
    | ofArguments hunset hsaid => exact .inr ⟨hunset, text, Option.or_eq_some_iff.mpr (.inl hsaid), hcut⟩
    | ofSettings hunset hunsaid hfile hload htext =>
      have hloaded := (hlevel text).mpr ⟨_, _, hfile, hload, htext⟩
      exact .inr ⟨hunset, text, Option.or_eq_some_iff.mpr (.inr ⟨hunsaid, hloaded⟩), hcut⟩

/-- The disk is left alone, but for the settings file. -/
theorem disk_start (hfile : SettingsFile.ofArguments a i = .ok f) (d : Disk) :
    (start i a d).disk = (f.ensureExists d).2 := by
  rw [start_of_file hfile]
  exact f.loadAtStart_disk d

theorem settings_start (hfile : SettingsFile.ofArguments a i = .ok f) (d : Disk) :
    (start i a d).settings = (f.load d).toOption.getD {} := by
  rw [start_of_file hfile]
  exact f.settings_at_start d

theorem disk_start_of_error {e : SettingsError} (hfile : SettingsFile.ofArguments a i = .error e) (d : Disk) :
    (start i a d).disk = d := by
  rw [start, hfile]

/-- Who serves an input writes the replies to its lines, and ends well. -/
theorem serve_lines (f : SettingsFile) (s : Settings) (input : List UInt8) (d : Disk) :
    (serve f s input d).ended = some (.ok ()) ∧ (serve f s input d).sink.written.reverse.splitOn newlineByte =
      (replies (Line.reply (.shell f) lineLimit) ((segments input).map (Segment.toLine lineLimit)) d).1.map
        Utf8.encodeString ++ [[]] := by
  have hquiet : [LineLoop.Happening.arrival input].flatMap LineLoop.Happening.published = [] := rfl
  have hinput : [LineLoop.Happening.arrival input].flatMap LineLoop.Happening.input = input := List.append_nil input
  obtain ⟨hended, -, hlines⟩ :=
    LineLoop.written_of_quiet (.shell f) d lineLimit (.ofCapacity s.eventCapacity.toNat) hquiet
  rw [hinput, ← replies_map (Segment.reply_toLine _ _)] at hlines
  exact ⟨hended, hlines⟩

/-- Whoever serves keeps the bus. -/
theorem bus_serve (f : SettingsFile) (s : Settings) (input : List UInt8) (d : Disk) :
    (serve f s input d).bus = .ofCapacity s.eventCapacity.toNat := by
  obtain ⟨texts, hfed, hbus, -⟩ :=
    (LineLoop.wrote_start (.shell f) d lineLimit (.ofCapacity s.eventCapacity.toNat)).feed input
  obtain ⟨-, -, -, hclosed, -⟩ := hfed.close
  exact hclosed.trans hbus

/-- Where the filter cannot be read, the program ends before it serves. -/
theorem run_of_unreadable (hargs : Arguments.parse i.args i.environment = .ok a) (hfilter : (start i a d).filter = none)
    (input : List UInt8) : run i input d = .ok ⟨unreadableFilterCode, [], [], (start i a d).disk, none⟩ := by
  rw [run, hargs]
  dsimp only
  rw [hfilter]

/-- Where there is no settings file, it ends before it serves, too. -/
theorem run_of_error {e : SettingsError} (hargs : Arguments.parse i.args i.environment = .ok a)
    (hfile : SettingsFile.ofArguments a i = .error e) (hfilter : (start i a d).filter ≠ none) :
    ∃ log, ∀ input, run i input d = .ok ⟨1, [], log, d, none⟩ := by
  obtain ⟨filter, hsome⟩ := Option.ne_none_iff_exists'.mp hfilter
  have hnone : (start i a d).file = none := by
    rw [start, hfile]
  refine ⟨(start i a d).log.filter fun l => filter.logs target l.level, fun input => ?_⟩
  rw [run, hargs]
  dsimp only
  rw [hsome, hnone]
  dsimp only
  rw [disk_start_of_error hfile]

/-- Otherwise the program leaves what the loop leaves that serves the input. -/
theorem run_of_file (hargs : Arguments.parse i.args i.environment = .ok a)
    (hfile : SettingsFile.ofArguments a i = .ok f) (hfilter : (start i a d).filter ≠ none) (input : List UInt8) :
    ∃ r, run i input d = .ok r ∧ r.code = 0 ∧
      r.loop = some (serve f (start i a d).settings input (start i a d).disk) ∧
      r.output = (serve f (start i a d).settings input (start i a d).disk).sink.written.reverse ∧
      r.disk = (serve f (start i a d).settings input (start i a d).disk).state := by
  obtain ⟨filter, hsome⟩ := Option.ne_none_iff_exists'.mp hfilter
  have hnamed : (start i a d).file = some f := by
    rw [start_of_file hfile]
    rfl
  obtain ⟨hended, -⟩ := serve_lines f (start i a d).settings input (start i a d).disk
  rw [run, hargs]
  dsimp only
  rw [hsome, hnamed]
  dsimp only
  refine ⟨_, rfl, ?_, rfl, rfl, rfl⟩
  rw [hended]
  rfl

/-- What the program leaves when it has served an input with some settings: what the loop leaves that serves it, which has
a bus for as many events as the settings say, has read all of the input and has replied to its lines. -/
structure Served (f : SettingsFile) (s : Settings) (input : List UInt8) (d : Disk) (r : Finish) : Prop where
  /-- The program exits well. -/
  code : r.code = 0
  /-- The loop is the one that serves the input. -/
  loop : r.loop = some (serve f s input d)
  /-- Its bus is for as many events as the settings say. -/
  bus : (serve f s input d).bus = .ofCapacity s.eventCapacity.toNat
  /-- It ends well. -/
  ended : (serve f s input d).ended = some (.ok ())
  /-- The output is that of the loop. -/
  output : r.output = (serve f s input d).sink.written.reverse
  /-- The lines of the output are the replies to those of the input. -/
  lines : r.output.splitOn newlineByte = (replies (Line.reply (.shell f) lineLimit)
    ((segments input).map (Segment.toLine lineLimit)) d).1.map Utf8.encodeString ++ [[]]
  /-- The disk is that of the loop. -/
  disk : r.disk = (serve f s input d).state

/-- With whatever arguments and on whatever disk, as long as the log filter can be read: the program serves every input and
exits well, on a bus for as many events as the settings say if they can be loaded, and as the usual ones say otherwise. Only
where the arguments name neither a directory nor an environment it exits with 1, whatever the input is, and leaves the disk
alone. A filter that cannot be read at all ends it with its own code before it serves. -/
theorem served_on_any_disk (hargs : Arguments.parse i.args i.environment = .ok a) (d : Disk) :
    (FilterUnreadable i a d → ∃ d', (Unplaced a → d' = d) ∧
      ∀ input, run i input d = .ok ⟨unreadableFilterCode, [], [], d', none⟩) ∧
    (¬ FilterUnreadable i a d → Unplaced a → ∃ log, ∀ input, run i input d = .ok ⟨1, [], log, d, none⟩) ∧
    (¬ FilterUnreadable i a d → ¬ Unplaced a → ∃ f s, SettingsFile.ofArguments a i = .ok f ∧
      s = (f.load d).toOption.getD {} ∧ 1 ≤ s.eventCapacity ∧ s.eventCapacity ≤ 4096 ∧
        ∀ input, ∃ r, run i input d = .ok r ∧ Served f s input (f.ensureExists d).2 r) := by
  refine ⟨fun hcut => ?_, fun hreadable => ?_, fun hreadable => ?_⟩
  · refine ⟨(start i a d).disk, ?_, run_of_unreadable hargs (filter_eq_none_iff.mpr hcut)⟩
    intro hunplaced
    rcases ofArguments_cases a i with ⟨-, e, hfile⟩ | ⟨hplaced, -⟩
    · exact disk_start_of_error hfile d
    · exact absurd hunplaced hplaced
  · intro hunplaced
    rcases ofArguments_cases a i with ⟨-, e, hfile⟩ | ⟨hplaced, -⟩
    · exact run_of_error hargs hfile (mt filter_eq_none_iff.mp hreadable)
    · exact absurd hunplaced hplaced
  · intro hplaced
    rcases ofArguments_cases a i with ⟨hunplaced, -⟩ | ⟨-, f, hfile⟩
    · exact absurd hunplaced hplaced
    obtain ⟨hlow, hhigh⟩ := f.capacity_at_start d
    refine ⟨f, _, hfile, rfl, hlow, hhigh, fun input => ?_⟩
    obtain ⟨r, hrun, hcode, hloop, houtput, hdisk⟩ := run_of_file hargs hfile (mt filter_eq_none_iff.mp hreadable) input
    rw [settings_start hfile, disk_start hfile] at hloop houtput hdisk
    obtain ⟨hended, hlines⟩ := serve_lines f ((f.load d).toOption.getD {}) input (f.ensureExists d).2
    exact ⟨r, hrun, hcode, hloop, bus_serve _ _ _ _, hended, houtput, by rw [houtput, hlines], hdisk⟩

/-! ### Settings files of all kinds -/

/-- The program is told where its settings are. -/
def invocationInCfg : Invocation := { args := ["--config-dir", "cfg"], home := "/" }

/-- A settings file that says nothing but a log level. -/
def diskWithLevel (level : String) : Disk :=
  SettingsFile.diskWithSettings (Utf8.encodeString (Value.object [("log_level", .string level)]).render)

/-- A directory stands in the place of the settings file. -/
def diskWithDirectory : Disk := ⟨[(["cfg", "config.json"], .directory), (["cfg"], .directory)], []⟩

/-- The program serves with the usual settings where a directory is in the place of its file, exits with 1 where its
environment has no name, and does not serve where the settings have a level that cannot be cut. -/
theorem served_beside_directory :
    (∃ r, run invocationInCfg [] diskWithDirectory = .ok r ∧
      Served (.inDirectory "cfg") {} [] diskWithDirectory r) ∧
    (∃ log, run { args := ["--env", ".."], home := "/" } [] diskWithDirectory = .ok ⟨1, [], log, diskWithDirectory, none⟩) ∧
    ∃ d', run invocationInCfg [] (diskWithLevel "\u3000ab=info") = .ok ⟨101, [], [], d', none⟩ := by
  have hargs : Arguments.parse invocationInCfg.args invocationInCfg.environment = .ok ⟨"development", some "cfg", none⟩ := by
    rfl
  have hargs' : Arguments.parse ["--env", ".."] none = .ok ⟨"..", none, none⟩ := by rfl
  have hreadable {i : Invocation} {a : Arguments} (h : (start i a diskWithDirectory).filter.isSome) :
      ¬ FilterUnreadable i a diskWithDirectory := by
    intro hcut
    rw [filter_eq_none_iff.mpr hcut] at h
    cases h
  refine ⟨?_, ?_, ?_⟩
  · obtain ⟨-, -, hserves⟩ := served_on_any_disk hargs diskWithDirectory
    have hplaced : ¬ Unplaced ⟨"development", some "cfg", none⟩ := by
      rintro ⟨⟨⟩, -⟩
    obtain ⟨f, s, hfile, rfl, -, -, hserved⟩ := hserves (hreadable (by decide +kernel)) hplaced
    cases hfile
    have hload : ((SettingsFile.inDirectory "cfg").load diskWithDirectory).toOption = none := by rfl
    have hdisk : ((SettingsFile.inDirectory "cfg").ensureExists diskWithDirectory).2 = diskWithDirectory := by rfl
    rw [hload, hdisk] at hserved
    exact hserved []
  · obtain ⟨-, hstops, -⟩ := served_on_any_disk (i := { args := ["--env", ".."], home := "/" }) hargs' diskWithDirectory
    obtain ⟨log, hrun⟩ := hstops (hreadable (by decide +kernel)) ⟨rfl, rfl⟩
    exact ⟨log, hrun []⟩
  · obtain ⟨hcut, -, -⟩ := served_on_any_disk hargs (diskWithLevel "\u3000ab=info")
    obtain ⟨d', -, hrun⟩ := hcut (filter_eq_none_iff.mp (by decide +kernel))
    exact ⟨d', hrun []⟩

/-- A settings file that can be loaded ends the program before it serves. -/
theorem ended_by_level :
    ((SettingsFile.inDirectory "cfg").load (diskWithLevel "\u3000ab=info")).toOption.map Settings.logLevel
        = some (some "\u3000ab=info") ∧
      (run invocationInCfg [] (diskWithLevel "\u3000ab=info")).toOption.map Finish.code = some 101 := by
  decide +kernel

end Program

end ShellHost
