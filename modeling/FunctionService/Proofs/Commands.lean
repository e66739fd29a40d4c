import FunctionService.Command.Run
import FunctionService.Files.Disk
import FunctionService.Proofs.CleanResult

/-!
# What commands do

A command ends with an exit code and leaves a disk behind. This module says, for every disk and every
command, when the exit code is 0 and what has become of the files by then.

A run also depends on the turns that the visits of documents take. `Config.Analyzes` says what a package
can be analyzed to under a configuration: what any interleaving of the visits leads to, or what the visit
of one document after another leads to. The schedules of a run are good for all of that and for nothing
else (`Config.analyze_iff`).

Of the operations on a disk only two change anything. Making directories puts directories where there was
nothing, so it leaves all files alone, also if it fails half way (`Disk.makeDirectories_sameFiles`).
Writing a text changes the file that the path leads to and no other (`Disk.write_onlyFile`).
-/

namespace FunctionService

/-! ## Files on a disk -/

namespace Disk

variable {d d' d'' : Disk} {place : Place} {p : Path}

/-- The content of the file at a place, if there is a file. -/
def file? (d : Disk) (place : Place) : Option ByteArray :=
  match d.node? place with
  | some (.file content) => some content
  | _ => none

/-- No file was created, changed or removed. -/
def SameFiles (d d' : Disk) : Prop :=
  ∀ place, d'.file? place = d.file? place

/-- The file that a path leads to has the given content, and no other file was created, changed or
removed. -/
def OnlyFile (d d' : Disk) (p : Path) (content : ByteArray) : Prop :=
  ∃ place, d'.locate p = .ok place ∧ d'.file? place = some content ∧
    ∀ other, other ≠ place → d'.file? other = d.file? other

theorem SameFiles.refl (d : Disk) : d.SameFiles d :=
  fun _ => rfl

theorem SameFiles.trans (h : d.SameFiles d') (h' : d'.SameFiles d'') : d.SameFiles d'' :=
  fun place => (h' place).trans (h place)

theorem OnlyFile.of_sameFiles {content : ByteArray} (h : d.SameFiles d')
    (h' : d'.OnlyFile d'' p content) : d.OnlyFile d'' p content := by
  obtain ⟨place, hplace, hcontent, hothers⟩ := h'
  exact ⟨place, hplace, hcontent, fun other hne => (hothers other hne).trans (h other)⟩

theorem node?_put_self (hplace : isGiven place = false) (d : Disk) (node : Node) :
    (d.put place node).node? place = some node := by
  rw [node?, hplace, put, List.lookup_cons_self]
  rfl

theorem lookup_filter_ne {other : Place} (hne : other ≠ place) (entries : List (Place × Node)) :
    (entries.filter fun e => e.1 != place).lookup other = entries.lookup other := by
  induction entries with
  | nil => rfl
  | cons e entries ih =>
      obtain ⟨at_, node⟩ := e
      by_cases hat : at_ = place
      · subst hat
        have hdiffers : (other == at_) = false := by simpa using hne
        rw [List.filter_cons_of_neg (by simp), List.lookup_cons, hdiffers, ih]
      · rw [List.filter_cons_of_pos (by simpa using hat), List.lookup_cons, List.lookup_cons, ih]

theorem node?_put_of_ne {other : Place} (hne : other ≠ place) (d : Disk) (node : Node) :
    (d.put place node).node? other = d.node? other := by
  have hdiffers : (other == place) = false := by simpa using hne
  simp only [node?, put, List.lookup_cons, hdiffers, lookup_filter_ne hne]

theorem isGiven_of_node? (h : d.node? place ≠ some .directory) : isGiven place = false := by
  refine Bool.eq_false_iff.mpr fun hgiven => h ?_
  rw [node?, hgiven]
  rfl

/-- A directory that is put where there was nothing leaves all files alone. -/
theorem sameFiles_put_directory (h : d.node? place = none) : d.SameFiles (d.put place .directory) := by
  intro other
  by_cases hother : other = place
  · subst hother
    have hgiven : isGiven other = false := isGiven_of_node? (h ▸ Option.some_ne_none _).symm
    rw [file?, file?, node?_put_self hgiven, h]
  · rw [file?, file?, node?_put_of_ne hother]

/-! ## Making directories -/

theorem makeDirectory_eq_ok (h : d.makeDirectory p = .ok d') :
    ∃ place, d.node? place = none ∧ d' = d.put place .directory := by
  obtain ⟨place, _, h⟩ := exists_of_bind_eq_ok h
  cases hnode : d.node? place with
  | some node =>
      rw [hnode] at h
      cases h
  | none =>
      rw [hnode] at h
      obtain ⟨_, _, h⟩ := exists_of_bind_eq_ok h
      cases h
      exact ⟨place, hnode, rfl⟩

theorem ensureDirectory_sameFiles (d : Disk) (p : Path) : d.SameFiles (d.ensureDirectory p).2 := by
  unfold ensureDirectory
  split
  next d' h =>
    obtain ⟨place, hplace, rfl⟩ := makeDirectory_eq_ok h
    exact sameFiles_put_directory hplace
  next => exact .refl d

theorem makeFirst_sameFiles (d : Disk) (ps : List Path) : d.SameFiles (d.makeFirst ps).2 := by
  induction ps with
  | nil => exact .refl d
  | cons p above ih =>
      unfold makeFirst
      split
      next =>
        -- What is made above stays, whether or not the path itself can be made then.
        split
        next d' h =>
          rw [h] at ih
          exact ih.trans (ensureDirectory_sameFiles d' p)
        next fault d' h =>
          rw [h] at ih
          exact ih
      next => exact ensureDirectory_sameFiles d p

theorem makeDirectories_sameFiles (d : Disk) (p : Path) : d.SameFiles (d.makeDirectories p).2 := by
  unfold makeDirectories
  split
  · exact .refl d
  · exact makeFirst_sameFiles d p.ancestors

/-! ## Writing a file -/

theorem write_eq_ok {text : String} (h : d.write p text = .ok d') :
    ∃ place, d.locate p = .ok place ∧ d.node? place ≠ some .directory ∧
      d' = d.put place (.file text.toUTF8) := by
  obtain ⟨place, hlocate, h⟩ := exists_of_bind_eq_ok h
  refine ⟨place, hlocate, ?_⟩
  split at h
  next => cases h
  next hnode =>
    obtain ⟨_, _, h⟩ := exists_of_bind_eq_ok h
    cases h
    exact ⟨hnode, rfl⟩

/-- Segments that lead to a place where there is no directory still lead there when something has been
put there. -/
theorem follow_put {start : Place} {segments : List String} (node : Node)
    (hplace : d.node? place ≠ some .directory) (h : d.follow start segments = .ok place) :
    (d.put place node).follow start segments = .ok place := by
  induction segments generalizing start with
  | nil => exact h
  | cons segment rest ih =>
      -- The way there passes through directories only, so the place itself is not on it.
      cases hstart : d.node? start with
      | none => simp [follow, hstart] at h
      | some found =>
          cases found with
          | file content => simp [follow, hstart] at h
          | directory =>
              have hne : start ≠ place := fun heq => hplace (heq ▸ hstart)
              rw [follow, hstart] at h
              obtain ⟨next, hnext, h⟩ := exists_of_bind_eq_ok h
              rw [follow, node?_put_of_ne hne, hstart, hnext]
              exact ih h

theorem locate_put (node : Node) (hplace : d.node? place ≠ some .directory)
    (h : d.locate p = .ok place) : (d.put place node).locate p = .ok place := by
  unfold locate locateSegments at h ⊢
  split_ifs at h ⊢ with _ _ _ habsolute
  all_goals exact follow_put node hplace h

theorem write_onlyFile {text : String} (h : d.write p text = .ok d') :
    d.OnlyFile d' p text.toUTF8 := by
  obtain ⟨place, hlocate, hnode, rfl⟩ := write_eq_ok h
  refine ⟨place, locate_put _ hnode hlocate, ?_, fun other hne => ?_⟩
  · rw [file?, node?_put_self (isGiven_of_node? hnode)]
  · rw [file?, file?, node?_put_of_ne hne]

/-- The directory exists or can be made, and then the text can be written to the file: nothing on the way
there is missing or in the way, and the system refuses none of it. -/
def CanWrite (d : Disk) (directory file : Path) (text : String) : Prop :=
  (d.makeDirectories directory).1 = .ok () ∧
    ∃ d', (d.makeDirectories directory).2.write file text = .ok d'

/-! ## Computations on a disk -/

variable {α β : Type}

/-- What a computation answers on a disk. -/
def answer (d : Disk) (x : StateM Disk α) : α :=
  (x.run d).1

/-- The disk that a computation leaves behind. -/
def after (d : Disk) (x : StateM Disk α) : Disk :=
  (x.run d).2

/-- A computation that changes no disk. -/
def ReadsOnly (x : StateM Disk α) : Prop :=
  ∀ d : Disk, d.after x = d

@[simp]
theorem answer_pure (d : Disk) (a : α) : d.answer (pure a) = a :=
  rfl

theorem answer_bind (d : Disk) (x : StateM Disk α) (f : α → StateM Disk β) :
    d.answer (x >>= f) = (d.after x).answer (f (d.answer x)) :=
  rfl

theorem after_bind (d : Disk) (x : StateM Disk α) (f : α → StateM Disk β) :
    d.after (x >>= f) = (d.after x).after (f (d.answer x)) :=
  rfl

@[simp]
theorem answer_makeDirectories (d : Disk) (p : Path) :
    d.answer (FileStore.makeDirectories p) = (d.makeDirectories p).1 :=
  rfl

@[simp]
theorem after_makeDirectories (d : Disk) (p : Path) :
    d.after (FileStore.makeDirectories p) = (d.makeDirectories p).2 :=
  rfl

theorem run_write_of_ok {text : String} (h : d.write p text = .ok d') :
    d.answer (FileStore.write p text) = .ok () ∧ d.after (FileStore.write p text) = d' := by
  simp [answer, after, FileStore.write, attempt, StateT.run, h]

theorem run_write_of_error {text : String} {fault : FileFault} (h : d.write p text = .error fault) :
    d.answer (FileStore.write p text) = .error fault ∧ d.after (FileStore.write p text) = d := by
  simp [answer, after, FileStore.write, attempt, StateT.run, h]

theorem readsOnly_pure (a : α) : ReadsOnly (pure a) :=
  fun _ => rfl

theorem ReadsOnly.bind {x : StateM Disk α} {f : α → StateM Disk β} (hx : ReadsOnly x)
    (hf : ∀ a, ReadsOnly (f a)) : ReadsOnly (x >>= f) := by
  intro d
  rw [after_bind, hx d, hf _ d]

theorem readsOnly_read (p : Path) : ReadsOnly (FileStore.read p) :=
  fun _ => rfl

theorem readsOnly_isDirectory (p : Path) : ReadsOnly (FileStore.isDirectory p) :=
  fun _ => rfl

theorem readsOnly_loadConfig (p : Path) : ReadsOnly (loadConfig p) := by
  refine (readsOnly_read p).bind fun text => ?_
  cases text with
  | error fault => exact readsOnly_pure _
  | ok text => cases h : Config.ofText? text <;> simp only [h] <;> exact readsOnly_pure _

theorem readsOnly_resolvePackage (p : Path) : ReadsOnly (resolvePackage p) := by
  refine (readsOnly_isDirectory p).bind fun isDirectory => ?_
  cases isDirectory <;> exact readsOnly_pure _

theorem readsOnly_loadPackage (c : Config) (p : Path) : ReadsOnly (loadPackage c p) := by
  unfold loadPackage
  split
  next => exact readsOnly_pure _
  next =>
    refine (readsOnly_resolvePackage p).bind fun file => (readsOnly_read file).bind fun text => ?_
    cases text <;> exact readsOnly_pure _

theorem readsOnly_config (i : Invocation) : ReadsOnly i.loadConfig := by
  unfold Invocation.loadConfig
  cases i.config with
  | none => exact readsOnly_pure _
  | some path => exact readsOnly_loadConfig path

theorem readsOnly_runCheck (c : Config) (schedule : Schedule) (package : Path) (json : Bool) :
    ReadsOnly (runCheck c schedule package json) := by
  refine (readsOnly_loadPackage c package).bind fun loaded => ?_
  cases loaded <;> exact readsOnly_pure _

/-! ## Writing a service -/

/-- A service is written exactly if that is possible, and only the file for it changes. -/
theorem writeSource_cases (d : Disk) (output : Path) (s : SourceFile) :
    let file := output.join ⟨s.fileName⟩
    (d.CanWrite output file s.content ∧ d.answer (writeSource output s) = .ok file ∧
      d.OnlyFile (d.after (writeSource output s)) file s.content.toUTF8) ∨
    (¬ d.CanWrite output file s.content ∧ (∃ failure, d.answer (writeSource output s) = .error failure) ∧
      d.SameFiles (d.after (writeSource output s))) := by
  intro file
  have hsame := makeDirectories_sameFiles d output
  unfold writeSource CanWrite
  simp only [answer_bind, after_bind, answer_makeDirectories, after_makeDirectories]
  generalize d.makeDirectories output = made at hsame ⊢
  obtain ⟨outcome, d'⟩ := made
  cases outcome with
  | error fault => exact .inr ⟨by simp, ⟨_, rfl⟩, hsame⟩
  | ok _ =>
      simp only [answer_bind, after_bind]
      cases hwrite : d'.write file s.content with
      | error fault =>
          obtain ⟨hanswer, hafter⟩ := run_write_of_error hwrite
          rw [hanswer, hafter]
          exact .inr ⟨by simp, ⟨_, rfl⟩, hsame⟩
      | ok d'' =>
          obtain ⟨hanswer, hafter⟩ := run_write_of_ok hwrite
          rw [hanswer, hafter]
          exact .inl ⟨by simp, rfl, (write_onlyFile hwrite).of_sameFiles hsame⟩

end Disk

/-! ## Ending a build -/

/-- A build that got this result writes a service: nothing speaks against the result or the command
insists, the service was generated, and it can be written. -/
structure CompileResult.Writes (r : CompileResult) (d : Disk) (output : Path) (force : Bool)
    (s : SourceFile) : Prop where
  accepted : r.diagnostics = [] ∨ force = true
  generated : r.generated = some s
  writable : d.CanWrite output (output.join ⟨s.fileName⟩) s.content

namespace Disk

/-- How a build ends, whatever the result is that it got. -/
theorem finishBuild_cases (d : Disk) (c : Config) (r : CompileResult) (output : Path)
    (json force : Bool) :
    let build : StateM Disk Outcome := finishBuild c r output json force
    (∃ s, r.Writes d output force s ∧ (d.answer build).exitCode = 0 ∧
      d.OnlyFile (d.after build) (output.join ⟨s.fileName⟩) s.content.toUTF8) ∨
    ((∀ s, ¬ r.Writes d output force s) ∧ (d.answer build).exitCode = 1 ∧
      d.SameFiles (d.after build)) := by
  intro build
  have hrefused : (r.hasErrors && !force) = true ↔ ¬ (r.diagnostics = [] ∨ force = true) := by
    simp [CompileResult.hasErrors]
  by_cases hstops : (r.hasErrors && !force) = true
  · simp only [build, finishBuild, if_pos hstops]
    exact .inr ⟨fun s h => hrefused.mp hstops h.accepted, rfl, .refl d⟩
  have haccepted := not_not.mp (mt hrefused.mpr hstops)
  cases hgenerated : r.generated with
  | none =>
      simp only [build, finishBuild, if_neg hstops, hgenerated]
      exact .inr ⟨fun s h => Option.some_ne_none s (h.generated.symm.trans hgenerated), rfl, .refl d⟩
  | some s =>
      simp only [build, finishBuild, if_neg hstops, hgenerated, answer_bind, after_bind]
      obtain ⟨hcan, hanswer, honly⟩ | ⟨hcannot, ⟨failure, hanswer⟩, hsame⟩ := writeSource_cases d output s
      · rw [hanswer]
        exact .inl ⟨s, ⟨haccepted, hgenerated, hcan⟩, rfl, honly⟩
      · rw [hanswer]
        refine .inr ⟨fun s' h => hcannot ?_, rfl, hsame⟩
        obtain rfl : s' = s := Option.some_injective _ (h.generated.symm.trans hgenerated)
        exact h.writable

end Disk

/-! ## Analyzing as a configuration asks for -/

/-- What a package can be analyzed to under a configuration. -/
inductive Config.Analyzes (c : Config) (p : Package) : Analysis → Prop
  | inOrder : c.parallel = false → Analyzes c p (p.analyze {})
  | sideBySide {s : Interleaving} :
      c.parallel = true → p.start.Reaches s → s.IsDone → Analyzes c p s.analysis

namespace Config

theorem analyze_iff (c : Config) (p : Package) (a : Analysis) :
    (∃ schedule, c.analyze schedule p = a) ↔ c.Analyzes p a := by
  unfold analyze
  cases hparallel : c.parallel with
  | false =>
      constructor
      · rintro ⟨_, rfl⟩
        exact .inOrder hparallel
      · rintro (_ | ⟨htrue, _, _⟩)
        · exact ⟨[], rfl⟩
        · cases hparallel.symm.trans htrue
  | true =>
      refine (p.analyzeSideBySide_iff a).trans ⟨?_, ?_⟩
      · rintro ⟨s, hrun, hdone, rfl⟩
        exact .sideBySide hparallel hrun hdone
      · rintro (hfalse | ⟨_, hrun, hdone⟩)
        · cases hparallel.symm.trans hfalse
        · exact ⟨_, hrun, hdone, rfl⟩

/-- Also the visit of one document after another is a finished interleaving. -/
theorem exists_run (c : Config) (schedule : Schedule) (p : Package) :
    ∃ s, p.start.Reaches s ∧ s.IsDone ∧ s.analysis = c.analyze schedule p := by
  have hanalyzes := (c.analyze_iff p _).mp ⟨schedule, rfl⟩
  generalize c.analyze schedule p = a at hanalyzes ⊢
  cases hanalyzes with
  | inOrder _ => exact Interleaving.reaches_visitAll p (.refl _)
  | sideBySide _ hrun hdone => exact ⟨_, hrun, hdone, rfl⟩

/-- Whether anything is reported does not depend on how documents are visited. -/
theorem check_eq_nil_iff {p : Package} (hone : p.defaultModuleCount = 1) (c : Config)
    (schedule : Schedule) : c.check schedule p = [] ↔ p.check = [] := by
  obtain ⟨s, hrun, hdone, hs⟩ := c.exists_run schedule p
  obtain ⟨t, hrun', hdone', ht⟩ := Interleaving.reaches_visitAll p (.refl p.units)
  have hlength := Interleaving.length_reported_eq hone hrun hdone hrun' hdone'
  rw [check, Package.check, Package.analyze, ← hs, ← ht, Analysis.diagnostics_eq_nil_iff,
    Analysis.diagnostics_eq_nil_iff, ← List.length_eq_zero_iff, ← List.length_eq_zero_iff, hlength]

theorem withPort_frontend (c : Config) (port : Option UInt16) :
    (c.withPort port).frontend = c.frontend := by
  cases port <;> rfl

theorem withSequential_frontend (c : Config) (sequential : Bool) :
    (c.withSequential sequential).frontend = c.frontend := by
  cases sequential <;> rfl

/-- The configuration that a build runs under. -/
theorem withPort_withSequential (c : Config) (sequential : Bool) (port : Option UInt16) :
    (c.withSequential sequential).withPort port =
      { c with
        parallel := c.parallel && !sequential
        service := { c.service with port := port.getD c.service.port } } := by
  cases sequential <;> cases port <;> simp [withSequential, withPort]

end Config

/-! ## Running commands -/

/-- Only the front end that a configuration names matters when a package is loaded. -/
theorem loadPackage_congr {c c' : Config} (h : c.frontend = c'.frontend) (path : Path) :
    (loadPackage c path : StateM Disk _) = loadPackage c' path := by
  unfold loadPackage
  rw [h]

theorem generate_fileName {format : Formatter} {c : ServiceConfig} {fs : List Signature}
    {s : SourceFile} (h : generate format c fs = some s) : s.fileName = c.documentName ++ ".bal" := by
  unfold generate at h
  split at h
  next =>
    cases h
    rfl
  next => cases h

namespace Disk

variable {d : Disk} {i : Invocation} {c : Config}

/-- A package that was loaded has one default module. -/
theorem defaultModuleCount_of_load {path : Path} {p : Package}
    (h : d.answer (loadPackage c path) = .ok p) : p.defaultModuleCount = 1 := by
  unfold loadPackage at h
  split at h
  next => cases h
  next =>
    simp only [answer_bind] at h
    split at h
    next => cases h
    next => exact Package.defaultModuleCount_of_parse h

theorem run_of_config_error {failure : Failure} (h : d.answer i.loadConfig = .error failure)
    (schedule : Schedule) :
    (d.answer (i.run schedule)).exitCode = 1 ∧ d.after (i.run schedule) = d := by
  unfold Invocation.run
  rw [answer_bind, after_bind, readsOnly_config i d, h]
  exact ⟨rfl, rfl⟩

theorem run_of_config_ok (h : d.answer i.loadConfig = .ok c) (schedule : Schedule) :
    d.answer (i.run schedule) = d.answer (i.command.run (c.withSequential i.sequential) schedule) ∧
      d.after (i.run schedule) = d.after (i.command.run (c.withSequential i.sequential) schedule) := by
  unfold Invocation.run
  rw [answer_bind, after_bind, readsOnly_config i d, h]
  exact ⟨rfl, rfl⟩

theorem runCheck_exitCode (d : Disk) (c : Config) (schedule : Schedule) (package : Path) (json : Bool) :
    (d.answer (runCheck c schedule package json)).exitCode = 0 ↔
      ∃ p, d.answer (loadPackage c package) = .ok p ∧ p.check = [] := by
  unfold runCheck
  rw [answer_bind, readsOnly_loadPackage c package d]
  cases hload : d.answer (loadPackage c package) with
  | error failure => simp [Outcome.failed]
  | ok p =>
      have hcheck := c.check_eq_nil_iff (defaultModuleCount_of_load hload) schedule
      simp only [answer_pure, checkOutcome, Except.ok.injEq, exists_eq_left', ← hcheck]
      cases c.check schedule p <;> simp [Outcome.failed]

theorem runBuild_cases (d : Disk) (c : Config) (schedule : Schedule) (package output : Path)
    (json force : Bool) :
    let build : StateM Disk Outcome := runBuild c schedule package output json force
    (∃ p s, d.answer (loadPackage c package) = .ok p ∧ (c.compile schedule p).Writes d output force s ∧
      (d.answer build).exitCode = 0 ∧
      d.OnlyFile (d.after build) (output.join ⟨s.fileName⟩) s.content.toUTF8) ∨
    ((∀ p s, d.answer (loadPackage c package) = .ok p →
      ¬ (c.compile schedule p).Writes d output force s) ∧
      (d.answer build).exitCode = 1 ∧ d.SameFiles (d.after build)) := by
  intro build
  simp only [build, runBuild, answer_bind, after_bind, readsOnly_loadPackage c package d]
  cases d.answer (loadPackage c package) with
  | error failure => exact .inr ⟨by simp, rfl, .refl d⟩
  | ok p =>
      obtain ⟨s, hwrites, hexit, honly⟩ | ⟨hnot, hexit, hsame⟩ :=
        finishBuild_cases d c (c.compile schedule p) output json force
      · exact .inl ⟨p, s, rfl, hwrites, hexit, honly⟩
      · refine .inr ⟨fun q s hq => ?_, hexit, hsame⟩
        cases hq
        exact hnot s

/-- What a build loads and writes when it ends well. The port of the command line goes before the one of
the configuration, and documents are visited side by side only if neither asks for one after another. -/
structure Builds (d : Disk) (i : Invocation) (schedule : Schedule) (package output : Path)
    (port : Option UInt16) (force : Bool) (c : Config) (p : Package) (s : SourceFile) : Prop where
  config : d.answer i.loadConfig = .ok c
  package : d.answer (loadPackage c package) = .ok p
  writes :
    let settings : Config := { c with
      parallel := c.parallel && !i.sequential
      service := { c.service with port := port.getD c.service.port } }
    (settings.compile schedule p).Writes d output force s

theorem Builds.unique {schedule : Schedule} {package output : Path} {port : Option UInt16} {force : Bool}
    {c' : Config} {p p' : Package} {s s' : SourceFile}
    (h : d.Builds i schedule package output port force c p s)
    (h' : d.Builds i schedule package output port force c' p' s') : c = c' ∧ p = p' ∧ s = s' := by
  obtain rfl : c = c' := Except.ok.inj (h.config.symm.trans h'.config)
  obtain rfl : p = p' := Except.ok.inj (h.package.symm.trans h'.package)
  exact ⟨rfl, rfl, Option.some.inj (h.writes.generated.symm.trans h'.writes.generated)⟩

theorem build_cases {package output : Path} {port : Option UInt16} {json force : Bool}
    (hcommand : i.command = .build package output port json force) (schedule : Schedule) :
    (∃ c p s, d.Builds i schedule package output port force c p s ∧
      (d.answer (i.run schedule)).exitCode = 0 ∧
      d.OnlyFile (d.after (i.run schedule)) (output.join ⟨c.service.documentName ++ ".bal"⟩)
        s.content.toUTF8) ∨
    ((∀ c p s, ¬ d.Builds i schedule package output port force c p s) ∧
      (d.answer (i.run schedule)).exitCode = 1 ∧ d.SameFiles (d.after (i.run schedule))) := by
  cases hconfig : d.answer i.loadConfig with
  | error failure =>
      obtain ⟨hexit, hafter⟩ := run_of_config_error hconfig schedule
      refine .inr ⟨fun c p s h => ?_, hexit, hafter.symm ▸ .refl d⟩
      cases hconfig.symm.trans h.config
  | ok c =>
      obtain ⟨hanswer, hafter⟩ := run_of_config_ok hconfig schedule
      rw [hanswer, hafter, hcommand]
      have hcases := runBuild_cases d ((c.withSequential i.sequential).withPort port) schedule package
        output json force
      rw [loadPackage_congr ((Config.withPort_frontend ..).trans (Config.withSequential_frontend ..))]
        at hcases
      obtain ⟨p, s, hpackage, hwrites, hexit, honly⟩ | ⟨hnot, hexit, hsame⟩ := hcases
      · have hname : ((c.withSequential i.sequential).withPort port).service.documentName =
            c.service.documentName := by rw [c.withPort_withSequential]
        rw [generate_fileName hwrites.generated, hname] at honly
        rw [c.withPort_withSequential] at hwrites
        exact .inl ⟨c, p, s, ⟨hconfig, hpackage, hwrites⟩, hexit, honly⟩
      · refine .inr ⟨fun c₁ p s h => ?_, hexit, hsame⟩
        obtain rfl : c = c₁ := Except.ok.inj (hconfig.symm.trans h.config)
        refine hnot p s h.package ?_
        rw [c.withPort_withSequential]
        exact h.writes

theorem check_cases {package : Path} {json : Bool} (hcommand : i.command = .check package json)
    (schedule : Schedule) :
    d.after (i.run schedule) = d ∧
      ((d.answer (i.run schedule)).exitCode = 0 ↔
        ∃ c p, d.answer i.loadConfig = .ok c ∧ d.answer (loadPackage c package) = .ok p ∧
          p.check = []) := by
  cases hconfig : d.answer i.loadConfig with
  | error failure =>
      obtain ⟨hexit, hafter⟩ := run_of_config_error hconfig schedule
      exact ⟨hafter, by simp [hexit]⟩
  | ok c =>
      obtain ⟨hanswer, hafter⟩ := run_of_config_ok hconfig schedule
      rw [hanswer, hafter, hcommand]
      refine ⟨readsOnly_runCheck _ schedule package json d, ?_⟩
      have hcheck := runCheck_exitCode d (c.withSequential i.sequential) schedule package json
      rw [loadPackage_congr (c.withSequential_frontend i.sequential)] at hcheck
      simpa [Command.run] using hcheck

end Disk

/-- **What a command does**, on any disk and whatever turns the visits take. A build ends with code 0
exactly if the configuration and the package can be loaded, compiling reports nothing or the command
insists, a service is generated, and it can be written. The file for it, in the output directory, then
holds the text that this run generated, and no other file was touched. If the build ends with another
code, no file was touched. A check leaves the disk as it is, and ends with code 0 exactly if the
configuration and the package can be loaded and nothing is reported, which does not depend on the turns.
The analysis can become, by the choice of turns, whatever an interleaving of the visits leads to, or only
what one document after another leads to if that is asked for. -/
theorem Invocation.run_exact (d : Disk) (i : Invocation) :
    (∀ schedule : Schedule, match i.command with
      | .build package output port _ force =>
        ((d.answer (i.run schedule)).exitCode = 0 ↔
          ∃ c p s, d.Builds i schedule package output port force c p s) ∧
        (∀ c p s, d.Builds i schedule package output port force c p s →
          d.OnlyFile (d.after (i.run schedule)) (output.join ⟨c.service.documentName ++ ".bal"⟩)
            s.content.toUTF8) ∧
        ((d.answer (i.run schedule)).exitCode ≠ 0 → d.SameFiles (d.after (i.run schedule)))
      | .check package _ =>
        d.after (i.run schedule) = d ∧
        ((d.answer (i.run schedule)).exitCode = 0 ↔
          ∃ c p, d.answer i.loadConfig = .ok c ∧ d.answer (loadPackage c package) = .ok p ∧
            p.check = [])) ∧
    ∀ (c : Config) (p : Package) (a : Analysis),
      (∃ schedule, c.analyze schedule p = a) ↔ c.Analyzes p a := by
  refine ⟨fun schedule => ?_, Config.analyze_iff⟩
  split
  next package output port json force hcommand =>
    obtain ⟨c, p, s, hbuilds, hexit, honly⟩ | ⟨hnot, hexit, hsame⟩ :=
      Disk.build_cases (d := d) hcommand schedule
    · refine ⟨⟨fun _ => ⟨c, p, s, hbuilds⟩, fun _ => hexit⟩, fun c' p' s' h => ?_,
        fun hne => absurd hexit hne⟩
      obtain ⟨rfl, rfl, rfl⟩ := hbuilds.unique h
      exact honly
    · refine ⟨⟨fun hzero => ?_, fun ⟨c, p, s, h⟩ => absurd h (hnot c p s)⟩,
        fun c p s h => absurd h (hnot c p s), fun _ => hsame⟩
      rw [hexit] at hzero
      cases hzero
  next package json hcommand => exact Disk.check_cases hcommand schedule

namespace Disk

theorem read_of_node? {d : Disk} {p : Path} {place : Place} {text : String}
    (hlocate : d.locate p = .ok place) (hask : d.ask place .read = .ok ())
    (hnode : d.node? place = some (.file text.toUTF8)) : d.read p = .ok text := by
  have htext : String.fromUTF8? text.toUTF8 = some text := by
    rw [String.fromUTF8?, String.toUTF8_eq_toByteArray, dif_pos text.isValidUTF8]
    rfl
  simp only [read, hlocate, hask, hnode, htext, bind, Except.bind, pure, Except.pure]

/-- A disk with a package description and nothing else. -/
def describing (text : String) : Disk where
  entries := [(["package.json"], .file text.toUTF8)]

/-- The same disk without space for anything more. -/
def full (d : Disk) : Disk :=
  { d with refuses := fun _ _ request => match request with
    | .put _ => some (.other "No space left on device (os error 28)")
    | _ => none }

theorem loadPackage_describing (text : String) :
    (describing text).answer (loadPackage {} descriptionFile) =
      Package.parse descriptionFile text := by
  have hresolved : (describing text).answer (resolvePackage descriptionFile) = descriptionFile := rfl
  have hread : (describing text).answer (FileStore.read descriptionFile) = .ok text :=
    read_of_node? rfl rfl rfl
  have hfrontend : Frontend.ofName ({} : Config).frontend = .ok .json := rfl
  unfold loadPackage
  rw [hfrontend]
  simp only [answer_bind, readsOnly_resolvePackage descriptionFile _, hresolved,
    readsOnly_read descriptionFile _, hread, answer_pure]

theorem canWrite_describing (text content : String) :
    (describing text).CanWrite ⟨"out"⟩ (Path.join ⟨"out"⟩ ⟨"service.bal"⟩) content :=
  ⟨rfl, _, rfl⟩

theorem not_canWrite_full (text content : String) (file : Path) :
    ¬ (describing text).full.CanWrite ⟨"out"⟩ file content := by
  intro h
  cases h.1

end Disk

/-- The service for the one transformer of a package is written, with the port of the command line in the
place of the configured one. Without space for it the build ends with another code, and so does a build of
a package that does not exist, whatever is insisted on. -/
theorem Invocation.run_exact_oneTransformer :
    ∃ text s,
      let d := Disk.describing text
      let schedule : Schedule := [0, 1, 0]
      let i : Invocation := ⟨none, false, .build descriptionFile ⟨"out"⟩ (some 9090) false false⟩
      let j : Invocation := ⟨none, false, .build ⟨"missing"⟩ ⟨"out"⟩ none false true⟩
      let k : Invocation := ⟨none, true, .check descriptionFile true⟩
      let c : Config := { service := { port := 9090 } }
      (({} : Config).service.port ≠ 9090 ∧ (d.answer (i.run schedule)).exitCode = 0 ∧
        (c.compile schedule Package.oneTransformer).generated = some s ∧
        d.OnlyFile (d.after (i.run schedule)) (Path.join ⟨"out"⟩ ⟨"service.bal"⟩) s.content.toUTF8) ∧
      ((d.full.answer (i.run schedule)).exitCode ≠ 0 ∧ d.full.SameFiles (d.full.after (i.run schedule))) ∧
      ((d.answer (j.run schedule)).exitCode ≠ 0 ∧ d.SameFiles (d.after (j.run schedule))) ∧
      (d.answer (k.run schedule)).exitCode = 0 := by
  obtain ⟨text, hparse⟩ : ∃ text, Package.parse descriptionFile text = .ok Package.oneTransformer :=
    ⟨_, Package.parse_oneTransformer⟩
  obtain ⟨s, hs⟩ : ∃ s, (Config.compile { service := { port := 9090 } } [0, 1, 0]
      Package.oneTransformer).generated = some s := Option.isSome_iff_exists.mp (by decide +kernel)
  refine ⟨text, s, ?_⟩
  intro d schedule i j k c
  have hpackage : d.answer (loadPackage {} descriptionFile) = .ok Package.oneTransformer :=
    (Disk.loadPackage_describing text).trans hparse
  have hname : s.fileName = "service.bal" := generate_fileName hs
  have hbuilds : d.Builds i schedule descriptionFile ⟨"out"⟩ (some 9090) false {}
      Package.oneTransformer s :=
    ⟨rfl, hpackage, .inl (by decide +kernel), hs, hname ▸ Disk.canWrite_describing _ _⟩
  have hfile : ({} : Config).service.documentName ++ ".bal" = "service.bal" := by decide
  obtain ⟨hzero, honly, _⟩ := (run_exact d i).1 schedule
  have honly := honly _ _ _ hbuilds
  rw [hfile] at honly
  obtain ⟨hfull, _, hfullSame⟩ := (run_exact d.full i).1 schedule
  have hfullExit : (d.full.answer (i.run schedule)).exitCode ≠ 0 := by
    intro hexit
    obtain ⟨_, _, _, hb⟩ := hfull.mp hexit
    exact Disk.not_canWrite_full text _ _ hb.writes.writable
  have hne : (d.answer (j.run schedule)).exitCode ≠ 0 := by
    have hone : (d.answer (j.run schedule)).exitCode = 1 := rfl
    rw [hone]
    decide
  obtain ⟨_, _, hsame⟩ := (run_exact d j).1 schedule
  obtain ⟨_, hcheck⟩ := (run_exact d k).1 schedule
  exact ⟨⟨by decide, hzero.mpr ⟨_, _, _, hbuilds⟩, hs, honly⟩, ⟨hfullExit, hfullSame hfullExit⟩,
    ⟨hne, hsame hne⟩, hcheck.mpr ⟨{}, Package.oneTransformer, rfl, hpackage, by decide +kernel⟩⟩

end FunctionService
