import ShellHost.Proofs.CommandLine.Starting
import ShellHost.Proofs.Disk.Components

/-!
# Environments

The settings of an environment lie in a directory that bears its name, in the directory of this program (`LiesIn`). No name
of an environment leads out of there: it is one component of a path, and an ordinary one (`Ordinary`). Other texts are
refused, and no two environments share their settings (`environments_apart`).
-/

namespace ShellHost

namespace Disk

variable {d : Disk} {dir : Path} {name : String} {place : Place}

/-- The text is one component of a path and names an entry of a directory. -/
structure Ordinary (name : String) : Prop where
  /-- There is one component, and it is an entry. -/
  component : components name = [.entry name]
  /-- It is not nothing, and not one of the directories that have a sign of their own. -/
  sign : name ≠ "" ∧ name ≠ "." ∧ name ≠ ".."
  /-- It does not begin at the root. -/
  relative : isAbsolute name = false
  /-- There is no slash in it. -/
  slash : '/' ∉ name.toList
  /-- There is no character in it that no path can have. -/
  zero : '\x00' ∉ name.toList

theorem ofPart?_of_ne (hempty : name ≠ "") (hhere : name ≠ ".") (hup : name ≠ "..") :
    Component.ofPart? name.toList = some (.entry name) := by
  have hne : ∀ cs, name ≠ String.ofList cs → name.toList ≠ cs := by
    rintro cs hcs rfl
    exact hcs String.ofList_toList.symm
  have hsilent : ¬ (name.toList = [] ∨ name.toList = ['.']) := fun h => h.elim (hne _ hempty) (hne _ hhere)
  unfold Component.ofPart?
  rw [if_neg hsilent, if_neg (hne _ hup), String.ofList_toList]

theorem ordinary_iff : Ordinary name ↔
    (name ≠ "" ∧ name ≠ "." ∧ name ≠ "..") ∧ '/' ∉ name.toList ∧ '\x00' ∉ name.toList := by
  constructor
  · intro h
    exact ⟨h.sign, h.slash, h.zero⟩
  · rintro ⟨hsign, hslash, hzero⟩
    have hname := ofPart?_of_ne hsign.1 hsign.2.1 hsign.2.2
    exact ⟨components_name hslash hname, hsign, isAbsolute_of_not_mem hslash, hslash, hzero⟩

theorem Ordinary.ofPart? (h : Ordinary name) : Component.ofPart? name.toList = some (.entry name) :=
  ofPart?_of_ne h.sign.1 h.sign.2.1 h.sign.2.2

theorem Ordinary.components_join (h : Ordinary name) (dir : Path) :
    components (join dir name) = components dir ++ [.entry name] :=
  Disk.components_join dir h.slash h.ofPart?

theorem Ordinary.join_ne (h : Ordinary name) (dir : Path) : join dir name ≠ "" := by
  intro hempty
  have hjoin := h.components_join dir
  have hnone : components "" = [] := by decide
  rw [hempty, hnone] at hjoin
  simp at hjoin

/-- Where the path of an ordinary name in a directory leads anywhere, the directory is there, and if no link bears the name,
this is where it leads. -/
theorem Ordinary.resolve_join {x : Option Node} (h : Ordinary name) (hdir : dir ≠ "")
    (hresolve : d.resolve .use (join dir name) = .ok (place, x)) :
    ∃ above, d.resolve .use dir = .ok (above, some .directory) ∧
      ((∀ target, d.node? (above ++ [name]) ≠ some (.link target)) → place = above ++ [name]) := by
  obtain ⟨pre, hparts, hnamed, -⟩ := parts_join dir h.slash
  have hroot := isAbsolute_join dir h.slash
  obtain ⟨n, above, hdirectory, hmoves⟩ :=
    resolve_beginning hparts (List.cons_ne_nil _ _) hnamed hroot.symm (prefix_join dir h.slash) hdir hresolve
  refine ⟨above, hdirectory, fun hlink => ?_⟩
  -- behind the directory the name is the only part that is left to walk along
  have hsame : d.walk .use linkLimit (start d.home (join dir name)) (pre ++ [name.toList])
      = d.walk .use n above [name.toList] :=
    hmoves.walkOn_andThen ⟨name.toList, List.mem_singleton_self _, (Component.ofPart?_entry h.ofPart?).2⟩
  rw [(admissible_of_ok hresolve).resolve, walkOn, walker, hparts] at hresolve
  have hlast := hsame.symm.trans hresolve
  rcases walk_of_not_link h.ofPart? hlink hlast with ⟨-, hplace⟩ | hend
  · exact hplace
  · rw [walk_nil] at hend
    cases hend
    rfl

end Disk

open Disk

theorem ordinary_of_isEnvironmentName {name : String} (h : isEnvironmentName name = true) : Ordinary name := by
  simp only [isEnvironmentName, Bool.and_eq_true, bne_iff_ne] at h
  obtain ⟨⟨⟨hempty, hhere⟩, hup⟩, hall⟩ := h
  have hchar : ∀ c, isEnvironmentChar c = false → c ∉ name.toList := by
    intro c hc hmem
    rw [List.all_eq_true.mp hall c hmem] at hc
    cases hc
  exact ordinary_iff.mpr ⟨⟨hempty, hhere, hup⟩, hchar _ (by decide), hchar _ (by decide)⟩

namespace SettingsFile

variable {base : Path} {name : String} {f : SettingsFile}

/-- The file lies directly in the directory `name` of the directory of this program in `base`. -/
structure LiesIn (base : Path) (name : String) (f : SettingsFile) : Prop where
  /-- Its path says so. -/
  path : components f.path = components base ++ [.entry programName, .entry name, .entry fileName]
  /-- So do the paths of the directories that it is in. -/
  directories : ∃ dir home, parent? f.path = some dir ∧ parent? dir = some home ∧
    components dir = components base ++ [.entry programName, .entry name] ∧
    components home = components base ++ [.entry programName]
  /-- On a disk where the directory of this program is at a place and no links are below, this is where it is written. -/
  written : ∀ (d d' : Disk) content home, d.resolve .use (join base programName) = .ok (home, some .directory) →
    (∀ target, d.node? (home ++ [name]) ≠ some (.link target)) →
    (∀ target, d.node? (home ++ [name] ++ [fileName]) ≠ some (.link target)) →
    d.write f.path content = .ok d' → d' = d.put (home ++ [name] ++ [fileName]) (.file content)

theorem liesIn_of_ordinary (base : Path) (h : Ordinary name) :
    LiesIn base name (inDirectory (join (join base programName) name)) := by
  have hprogram : Ordinary programName := ordinary_iff.mpr (by decide)
  have hfile : Ordinary fileName := ordinary_iff.mpr (by decide)
  have hpath : components (inDirectory (join (join base programName) name)).path
      = components base ++ [.entry programName] ++ [.entry name] ++ [.entry fileName] := by
    rw [inDirectory, hfile.components_join, h.components_join, hprogram.components_join]
  refine ⟨?_, ?_, ?_⟩
  · rw [hpath, List.append_assoc, List.append_assoc]
    rfl
  · obtain ⟨dir, hdir, hcomponents⟩ := exists_parent? hpath
    obtain ⟨home, hhome, habove⟩ := exists_parent? hcomponents
    rw [List.append_assoc] at hcomponents
    exact ⟨dir, home, hdir, hhome, hcomponents, habove⟩
  · intro d d' content home hresolve hlink hlink' hwrite
    obtain ⟨place, x, hfound, hx, rfl⟩ := write_eq_ok hwrite
    have huse : d.resolve .use (join (join (join base programName) name) fileName) = .ok (place, x) := by
      refine resolve_use_of_ok hfound ?_
      rintro target rfl
      rcases hx with hx | ⟨c, hx⟩ <;> cases hx
    obtain ⟨dir, hdir, hplace⟩ := hfile.resolve_join (h.join_ne _) huse
    obtain ⟨home', hhome, hdir'⟩ := h.resolve_join (hprogram.join_ne _) hdir
    rw [hresolve] at hhome
    cases hhome
    obtain rfl := hdir' hlink
    rw [hplace hlink']

/-- The arguments name an environment, and the directories of programs are in `base`. -/
def Names (i : Invocation) (a : Arguments) (base : Path) (name : String) : Prop :=
  a.settingsDirectory = none ∧ a.environment = name ∧ settingsHome i.settingsHome i.home = base

theorem Names.ofArguments {i : Invocation} {a : Arguments} (h : Names i a base name) :
    ofArguments a i = ofEnvironment base name := by
  obtain ⟨hdirectory, rfl, rfl⟩ := h
  rw [SettingsFile.ofArguments, hdirectory]

theorem ofEnvironment_of_isEnvironmentName (base : Path) (h : isEnvironmentName name = true) :
    checkEnvironment name = .ok () ∧ ofEnvironment base name = .ok (inDirectory (join (join base programName) name)) := by
  have hcheck : checkEnvironment name = .ok () := by rw [checkEnvironment, if_pos h]
  exact ⟨hcheck, by rw [ofEnvironment, hcheck]⟩

theorem ofEnvironment_of_not (base : Path) (h : isEnvironmentName name = false) :
    ∃ reason, checkEnvironment name = .error (.invalid reason) ∧ ofEnvironment base name = .error (.invalid reason) := by
  have hcheck : checkEnvironment name = .error (.invalid ("invalid environment name: " ++ Text.quoted name)) := by
    rw [checkEnvironment, h, if_neg Bool.false_ne_true]
  exact ⟨_, hcheck, by rw [ofEnvironment, hcheck]⟩

/-- A text is either the name of an environment, and has a settings file, or it is refused. The name of an environment is an
ordinary one, and the file lies directly in the directory that bears it, in the directory of this program; that of another
environment has another path. To find the file changes nothing on the disk: if the text is refused, the program leaves the
disk alone, and otherwise it does what making the file does. -/
theorem environments_apart (base : Path) (name : String) :
    (checkEnvironment name = .ok () ∧ Ordinary name ∧ ∃ f, ofEnvironment base name = .ok f ∧ f.LiesIn base name ∧
      (∀ other f', ofEnvironment base other = .ok f' → f'.path = f.path → other = name) ∧
      ∀ i a d, Names i a base name → (Program.start i a d).disk = (f.ensureExists d).2) ∨
    ∃ reason, checkEnvironment name = .error (.invalid reason) ∧ ofEnvironment base name = .error (.invalid reason) ∧
      ∀ i a d, Names i a base name → (Program.start i a d).disk = d := by
  cases hname : isEnvironmentName name with
  | false =>
    right
    obtain ⟨reason, hcheck, hrefused⟩ := ofEnvironment_of_not base hname
    refine ⟨reason, hcheck, hrefused, fun i a d hnames => ?_⟩
    exact Program.disk_start_of_error (hnames.ofArguments.trans hrefused) d
  | true =>
    left
    obtain ⟨hcheck, hfile⟩ := ofEnvironment_of_isEnvironmentName base hname
    have hordinary := ordinary_of_isEnvironmentName hname
    have hlies := liesIn_of_ordinary base hordinary
    refine ⟨hcheck, hordinary, _, hfile, hlies, fun other f' hother hsame => ?_, fun i a d hnames => ?_⟩
    · cases hname' : isEnvironmentName other with
      | false =>
        obtain ⟨reason, -, hrefused⟩ := ofEnvironment_of_not base hname'
        rw [hrefused] at hother
        cases hother
      | true =>
        obtain ⟨-, hfile'⟩ := ofEnvironment_of_isEnvironmentName base hname'
        rw [hfile'] at hother
        cases hother
        have hpaths := (liesIn_of_ordinary base (ordinary_of_isEnvironmentName hname')).path
        rw [hsame, hlies.path] at hpaths
        simpa using (List.append_cancel_left hpaths).symm
    · exact Program.disk_start (hnames.ofArguments.trans hfile) d

/-- Two names that differ in one letter have settings, each in its own directory, and the sign of the directory above is
refused. -/
theorem cased_and_refused :
    (∃ f f', ofEnvironment "/etc" "Test" = .ok f ∧ ofEnvironment "/etc" "test" = .ok f' ∧ f.LiesIn "/etc" "Test" ∧
        f'.path ≠ f.path) ∧
      ∃ reason, ofEnvironment "/etc" ".." = .error (.invalid reason) := by
  have hgood : checkEnvironment "Test" = .ok () := by decide
  have hgood' : checkEnvironment "test" = .ok () := by decide
  have hbad : checkEnvironment ".." ≠ .ok () := by decide
  constructor
  · rcases environments_apart "/etc" "Test" with ⟨-, -, f, hf, hlies, hother, -⟩ | ⟨reason, hrefused, -⟩
    · refine ⟨f, _, hf, by rw [ofEnvironment, hgood'], hlies, fun hsame => ?_⟩
      have hnames := hother "test" _ (by rw [ofEnvironment, hgood']) hsame
      exact absurd hnames (by decide)
    · rw [hgood] at hrefused
      cases hrefused
  · rcases environments_apart "/etc" ".." with ⟨hok, -⟩ | ⟨reason, -, hrefused, -⟩
    · exact absurd hok hbad
    · exact ⟨reason, hrefused⟩

end SettingsFile

end ShellHost
