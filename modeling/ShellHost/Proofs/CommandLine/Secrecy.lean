import ShellHost.Proofs.CommandLine.Starting
import ShellHost.Proofs.Host.Confinement

/-!
# Who sees the settings

The program reads its settings file when it starts, and content may ask for the settings as often as it likes. Still, of
all replies only those to questions for the settings depend on the disk (`replies_alike`): whatever the files of two runs
are, there are as many replies, and the others are the same (`replies_on_disks`). One way is left for the settings to be
seen (`log_level_seen`): a log level that cannot be read at all ends the program before it serves.
-/

namespace ShellHost

open Json

variable {σ : Type}

/-! ## What a line asks for -/

/-- A line asks for the settings. -/
def Ask.ForSettings : Ask → Prop
  | .text s => AsksForSettings s
  | _ => False

/-- What the lines of an input ask for, but for those that ask for nothing. -/
def askedFor (limit : Nat) (lines : List Line) : List Ask := (lines.map (Line.ask limit)).filter (· ≠ .nothing)

/-- There is one reply to each line that asks for something. -/
theorem length_replies (host : Host σ) (limit : Nat) (lines : List Line) (s : σ) :
    (replies (Line.reply host limit) lines s).1.length = (askedFor limit lines).length := by
  induction lines generalizing s with
  | nil => rfl
  | cons line lines ih =>
    have hrest := ih (line.reply host limit s).2
    simp only [replies, askedFor, List.map_cons, Line.reply] at hrest ⊢
    cases hask : line.ask limit <;> simpa [hask, askedFor] using hrest

/-- Of a host that works on a settings file, the replies to anything but questions for the settings are the same on every
disk. -/
theorem replies_alike (f : SettingsFile) (limit : Nat) (lines : List Line) (d₁ d₂ : Disk) {k : Nat} {ask : Ask}
    (hk : (askedFor limit lines)[k]? = some ask) (hother : ¬ ask.ForSettings) :
    (replies (Line.reply (.shell f) limit) lines d₁).1[k]? = (replies (Line.reply (.shell f) limit) lines d₂).1[k]? := by
  induction lines generalizing d₁ d₂ k with
  | nil => rfl
  | cons line lines ih =>
    have hreplies : ∀ d, (replies (Line.reply (.shell f) limit) (line :: lines) d).1
        = (line.reply (.shell f) limit d).1.toList
          ++ (replies (Line.reply (.shell f) limit) lines (line.reply (.shell f) limit d).2).1 := fun _ => rfl
    rw [hreplies, hreplies, Line.reply, Line.reply]
    rw [askedFor, List.map_cons] at hk
    cases hask : line.ask limit with
    | nothing =>
      rw [hask, List.filter_cons_of_neg (by simp)] at hk
      exact ih d₁ d₂ hk
    | objection reason =>
      rw [hask, List.filter_cons_of_pos (by simp)] at hk
      cases k with
      | zero => rfl
      | succ k => exact ih d₁ d₂ hk
    | text text =>
      rw [hask, List.filter_cons_of_pos (by simp)] at hk
      cases k with
      | zero =>
        cases hk
        have hfree : ¬ AsksForSettings text := hother
        obtain ⟨reply, hreply⟩ := Host.handleText_diskFree f hfree
        dsimp only
        rw [hreply, hreply]
        rfl
      | succ k => exact ih _ _ hk

namespace Program

/-- What the lines of an input ask for. -/
def asked (input : List UInt8) : List Ask := askedFor lineLimit ((segments input).map (Segment.toLine lineLimit))

/-- The settings file names the log filter, and what it names cannot be read at all. -/
structure StoppedBySettings (i : Invocation) (a : Arguments) (dir : String) (d : Disk) : Prop where
  /-- The arguments name no filter. -/
  unsaid : a.logLevel = none
  /-- What the variable names, if anything, is no filter. -/
  unset : ∀ text ∈ i.logFilter, LogFilter.parse i.matchable text = .error .malformed
  /-- The file can be loaded, and a place to cut its log level at is inside a character. -/
  cut : ∃ s level, (SettingsFile.inDirectory dir).load d = .ok s ∧ s.logLevel = some level ∧
    LogFilter.parse i.matchable level = .error .insideCharacter

variable {i : Invocation} {a : Arguments} {dir : String} {d : Disk}

theorem file_of_directory (hdir : a.settingsDirectory = some dir) (i : Invocation) :
    SettingsFile.ofArguments a i = .ok (.inDirectory dir) := by
  rw [SettingsFile.ofArguments, hdir]

/-- The program does not begin to serve where the filter is such without the settings, or by the settings. -/
theorem filter_start_eq_none_iff (hdir : a.settingsDirectory = some dir) :
    (start i a d).filter = none ↔ filterOf i a none = none ∨ StoppedBySettings i a dir d := by
  rw [start_of_file (file_of_directory hdir i), startWith]
  dsimp only
  rw [filterOf_eq_none_iff, SettingsFile.level_at_start]
  refine or_congr_right ⟨?_, ?_⟩
  · rintro ⟨hunsaid, hunset, level, hlevel, hcut⟩
    obtain ⟨s, hload, hlevel⟩ := SettingsFile.level_eq_some_iff.mp hlevel
    exact ⟨hunsaid, hunset, s, level, hload, hlevel, hcut⟩
  · rintro ⟨hunsaid, hunset, s, level, hload, hlevel, hcut⟩
    exact ⟨hunsaid, hunset, level, SettingsFile.level_eq_some_iff.mpr ⟨s, hload, hlevel⟩, hcut⟩

/-! ## Two runs -/

/-- So it writes the replies to the lines of its input, and ends well. -/
theorem run_of_readable (hargs : Arguments.parse i.args i.environment = .ok a)
    (hdir : a.settingsDirectory = some dir) (hfilter : (start i a d).filter ≠ none) (input : List UInt8) :
    ∃ r, run i input d = .ok r ∧ r.code = 0 ∧ r.output.splitOn newlineByte =
      (replies (Line.reply (.shell (.inDirectory dir)) lineLimit) ((segments input).map (Segment.toLine lineLimit))
        (start i a d).disk).1.map Utf8.encodeString ++ [[]] := by
  obtain ⟨r, hrun, hcode, -, houtput, -⟩ := run_of_file hargs (file_of_directory hdir i) hfilter input
  obtain ⟨-, hlines⟩ := serve_lines (.inDirectory dir) (start i a d).settings input (start i a d).disk
  exact ⟨r, hrun, hcode, by rw [houtput, hlines]⟩

/-- Of two runs on the same input with whatever files, where a directory for the settings is named: as long as no log
level of the settings stops one of them, they end alike and write as many lines, and the replies are the same but for
those to questions for the settings. All lines are replied to, unless the log filter of the variable or the arguments
cannot be read at all. A log level that stops the program lets it write nothing. -/
theorem replies_on_disks (hargs : Arguments.parse i.args i.environment = .ok a)
    (hdir : a.settingsDirectory = some dir) (input : List UInt8) (d₁ d₂ : Disk) :
    (∀ d, StoppedBySettings i a dir d → ∃ d', run i input d = .ok ⟨unreadableFilterCode, [], [], d', none⟩) ∧
    (¬ StoppedBySettings i a dir d₁ → ¬ StoppedBySettings i a dir d₂ →
      ∃ r₁ r₂ lines₁ lines₂, run i input d₁ = .ok r₁ ∧ run i input d₂ = .ok r₂ ∧ r₁.code = r₂.code ∧
        r₁.output.splitOn newlineByte = lines₁ ++ [[]] ∧ r₂.output.splitOn newlineByte = lines₂ ++ [[]] ∧
        lines₁.length = lines₂.length ∧
        (filterOf i a none ≠ none → r₁.code = 0 ∧ lines₁.length = (asked input).length) ∧
        ∀ (k : Nat) (ask : Ask), (asked input)[k]? = some ask → ¬ ask.ForSettings → lines₁[k]? = lines₂[k]?) := by
  refine ⟨fun d hstop => ⟨_, run_of_unreadable hargs ((filter_start_eq_none_iff hdir).mpr (.inr hstop)) input⟩, ?_⟩
  intro hgoes₁ hgoes₂
  by_cases hnone : filterOf i a none = none
  · -- neither run begins to serve
    have hstart (d : Disk) : (start i a d).filter = none := (filter_start_eq_none_iff hdir).mpr (.inl hnone)
    exact ⟨_, _, [], [], run_of_unreadable hargs (hstart d₁) input, run_of_unreadable hargs (hstart d₂) input, rfl,
      List.splitOn_nil newlineByte, List.splitOn_nil newlineByte, rfl, fun h => absurd hnone h, fun _ _ _ _ => rfl⟩
  · have hstart {d : Disk} (hgoes : ¬ StoppedBySettings i a dir d) : (start i a d).filter ≠ none := by
      intro hfilter
      rcases (filter_start_eq_none_iff hdir).mp hfilter with h | h
      · exact hnone h
      · exact hgoes h
    obtain ⟨r₁, hrun₁, hcode₁, hlines₁⟩ := run_of_readable hargs hdir (hstart hgoes₁) input
    obtain ⟨r₂, hrun₂, hcode₂, hlines₂⟩ := run_of_readable hargs hdir (hstart hgoes₂) input
    refine ⟨r₁, r₂, _, _, hrun₁, hrun₂, hcode₁.trans hcode₂.symm, hlines₁, hlines₂, ?_, fun _ => ⟨hcode₁, ?_⟩, ?_⟩
    · rw [List.length_map, List.length_map, length_replies, length_replies]
    · rw [List.length_map, length_replies, asked]
    · intro k ask hask hother
      rw [List.getElem?_map, List.getElem?_map, replies_alike _ _ _ _ _ hask hother]

/-! ## A level that is seen -/

/-- An envelope that adds a project. -/
def projectEnvelope : Envelope := ⟨1, messageChannel, .array [.string "addNewProject", .object []]⟩

/-- Its line. -/
def projectLine : List UInt8 := Utf8.encodeString projectEnvelope.render ++ [newlineByte]

/-- A project is added alike whether the settings name a level or cannot be read; a level that cannot be cut stops the
program. -/
theorem project_added_alike :
    (∃ r₁ r₂ lines₁ lines₂, run invocationInCfg projectLine (SettingsFile.diskWithSettings [1]) = .ok r₁ ∧
      run invocationInCfg projectLine (diskWithLevel "debug") = .ok r₂ ∧ r₁.code = 0 ∧ r₁.code = r₂.code ∧
      r₁.output.splitOn newlineByte = lines₁ ++ [[]] ∧ r₂.output.splitOn newlineByte = lines₂ ++ [[]] ∧
      lines₁.length = 1 ∧ lines₁.length = lines₂.length ∧ lines₁[0]? = lines₂[0]?) ∧
    ∃ d', run invocationInCfg projectLine (diskWithLevel "\u3000ab=info") = .ok ⟨101, [], [], d', none⟩ := by
  let a : Arguments := ⟨"development", some "cfg", none⟩
  have hargs : Arguments.parse invocationInCfg.args invocationInCfg.environment = .ok a := by rfl
  have hdir : a.settingsDirectory = some "cfg" := rfl
  have hgoes {d : Disk} (h : (start invocationInCfg a d).filter.isSome) : ¬ StoppedBySettings invocationInCfg a "cfg" d := by
    intro hstop
    rw [(filter_start_eq_none_iff hdir).mpr (.inr hstop)] at h
    cases h
  have hdefault : filterOf invocationInCfg a none ≠ none := by decide +kernel
  have hasked : asked projectLine = [.text projectEnvelope.render] := by decide +kernel
  have hother : ¬ AsksForSettings projectEnvelope.render := by
    have hfree : projectEnvelope.payload.FloatFree := ⟨trivial, trivial, trivial⟩
    have hsorted : projectEnvelope.payload.Sorted := ⟨trivial, ⟨List.Pairwise.nil, trivial⟩, trivial⟩
    rw [asks_render_iff hfree hsorted (by decide)]
    simp [projectEnvelope, settingsPayload]
  obtain ⟨hstopped, halike⟩ :=
    replies_on_disks hargs hdir projectLine (SettingsFile.diskWithSettings [1]) (diskWithLevel "debug")
  obtain ⟨r₁, r₂, lines₁, lines₂, hrun₁, hrun₂, hcode, hlines₁, hlines₂, hlength, hall, hsame⟩ :=
    halike (hgoes (by decide +kernel)) (hgoes (by decide +kernel))
  obtain ⟨hzero, hone⟩ := hall hdefault
  rw [hasked] at hone hsame
  refine ⟨⟨r₁, r₂, lines₁, lines₂, hrun₁, hrun₂, hzero, hcode, hlines₁, hlines₂, hone, hlength, ?_⟩, ?_⟩
  · exact hsame 0 _ rfl hother
  · apply hstopped
    have hnone : (start invocationInCfg a (diskWithLevel "\u3000ab=info")).filter = none := by decide +kernel
    exact ((filter_start_eq_none_iff hdir).mp hnone).resolve_left hdefault

/-- Where the settings name a level that cannot be cut, a project cannot be added; it can where there are no settings. -/
theorem log_level_seen :
    let outcome (d : Disk) := (run invocationInCfg projectLine d).toOption.map fun r => (r.code, r.output)
    outcome (diskWithLevel "\u3000ab=info") = some (101, []) ∧
      outcome ⟨[], []⟩ = some (0, Utf8.encodeString (Reply.mk 1 (.ok (.object []))).render ++ [newlineByte]) := by
  decide +kernel

end Program

end ShellHost
