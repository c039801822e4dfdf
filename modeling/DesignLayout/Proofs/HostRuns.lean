import DesignLayout.Host
import DesignLayout.Proofs.ConfigInfluence
import DesignLayout.Proofs.SavedRuns

/-!
# Runs on a simulated host

The simulated host is a machine with files and a text that has been printed,
and a disk that may fail to write.  On it a command first works out all that
it does, from the files as it finds them, and then does it.  So a command that
fails before it writes has changed nothing.
-/

namespace DesignLayout

structure Machine where
  files : Directory
  printed : String

/-- What stands under a name after a text was to be written there and that
failed, or none if it succeeds. -/
abbrev Disk := Directory → String → String → Option File

namespace Machine

variable (machine : Machine) {α β : Type}

def print (text : String) : Machine :=
  { machine with printed := machine.printed ++ text }

def store (name : String) (file : File) : Machine :=
  { machine with files := Function.update machine.files name file }

/-- Goes on with an outcome, unless it is a fault. -/
def proceed (outcome : Except CommandFault α) (next : α → Except HostFault Unit × Machine) :
    Except HostFault Unit × Machine :=
  match outcome with
  | .ok value => next value
  | .error fault => (.error (.command fault), machine)

theorem proceed_bind (first : Except CommandFault α) (second : α → Except CommandFault β)
    (next : β → Except HostFault Unit × Machine) :
    machine.proceed (first >>= second) next =
      machine.proceed first fun value => machine.proceed (second value) next := by
  cases first <;> rfl

end Machine

namespace Command

/-- Why a document cannot be rendered under some flags. -/
inductive Unrenderable (name content : String) (flags : RenderFlags) : CommandFault → Prop where
  | unparsed : Document.parse? content = none →
      Unrenderable name content flags (.parsingDocument name)
  | dropped {document : Document} : Document.parse? content = some document →
      document.layout? = none → Unrenderable name content flags .noLayout
  | unwritable {document : Document} {root : Layout} {error : Unwritable} :
      Document.parse? content = some document → document.layout? = some root →
      renderTree root = .error (.value error) → Unrenderable name content flags (.value error)
  | clashing {document : Document} {root : Layout} {code : Code} {table : TokenTable}
      {error : MarkerFault} :
      Document.parse? content = some document → document.layout? = some root →
      renderTree root = .ok (code, table) → flags.marked = true →
      code.markedText = .error error → Unrenderable name content flags (.marker error)

variable {directory : Directory} {name document settingsFile content : String}
  {flags : RenderFlags} {fault : CommandFault}

theorem readLayout_eq (found : directory name = .text content) :
    readLayout directory name =
      match Document.parse? content with
      | none => .error (.parsingDocument name)
      | some document =>
        match document.layout? with
        | none => .error .noLayout
        | some root => .ok root := by
  simp only [readLayout, readDocument, found]
  cases Document.parse? content with
  | none => rfl
  | some document =>
      simp only [bind, Except.bind]
      cases document.layout? <;> rfl

theorem readSettings_cases (directory : Directory) (name : String) :
    (∃ stored, readSettings directory name = .ok stored) ∨
      directory name = .unreadable ∧
        readSettings directory name = .error (.readingSettings name) := by
  rw [readSettings]
  cases directory name with
  | absent => exact .inl ⟨.default, rfl⟩
  | unreadable => exact .inr ⟨rfl, rfl⟩
  | text content => exact .inl ⟨.parse content, rfl⟩

/-- A tree that cannot be printed stops a rendering when its settings are read,
unless they cannot be. -/
theorem run_render_of_printedSource {root : Layout}
    (layout : readLayout directory document = .ok root)
    (fails : ∀ settings, printedSource root settings flags.marked = .error fault) :
    ∃ reported, run directory (.render document settingsFile flags) = .error reported ∧
      (directory settingsFile ≠ .unreadable → reported = fault) := by
  rw [run, layout]
  show ∃ reported, (readSettings directory settingsFile >>= _) = _ ∧ _
  rcases readSettings_cases directory settingsFile with ⟨stored, read⟩ | ⟨unreadable, read⟩
  · refine ⟨fault, ?_, fun _ => rfl⟩
    rw [read]
    show (printedSource root _ flags.marked >>= _) = _
    rw [fails]
    rfl
  · refine ⟨.readingSettings settingsFile, ?_, fun readable => absurd unreadable readable⟩
    rw [read]
    rfl

/-- A rendering of a document that cannot be rendered fails, and says why if
its settings can be read. -/
theorem Unrenderable.run_render (unrenderable : Unrenderable document content flags fault)
    (found : directory document = .text content) (settingsFile : String) :
    ∃ reported, run directory (.render document settingsFile flags) = .error reported ∧
      (directory settingsFile ≠ .unreadable → reported = fault) := by
  have layout := readLayout_eq found
  cases unrenderable with
  | unparsed unparsed =>
      rw [unparsed] at layout
      exact ⟨_, by rw [run, layout]; rfl, fun _ => rfl⟩
  | dropped parsed dropped =>
      rw [parsed] at layout
      simp only [dropped] at layout
      exact ⟨_, by rw [run, layout]; rfl, fun _ => rfl⟩
  | unwritable parsed laidOut stops =>
      rw [parsed] at layout
      simp only [laidOut] at layout
      exact run_render_of_printedSource layout fun settings => printedSource_of_error stops _ _
  | clashing parsed laidOut rendered marked clash =>
      rw [parsed] at layout
      simp only [laidOut] at layout
      apply run_render_of_printedSource layout
      intro settings
      rw [printedSource_eq, rendered]
      show (printedCode _ _ _ flags.marked >>= _) = _
      rw [printedCode, marked, clash]
      rfl

theorem saved_of_run_render {effect : Effect}
    (ran : run directory (.render document settingsFile flags) = .ok effect) :
    ∃ text, effect.saved = if flags.save then some (settingsFile, text) else none := by
  obtain ⟨root, stored, code, table, layout, settings, rendered⟩ := exists_of_run_render ran
  rw [run_render_of layout settings rendered] at ran
  obtain ⟨printed, -, ran⟩ := exists_of_bind ran
  cases ran
  exact ⟨_, rfl⟩

theorem saved_of_run_countEntries {config : String} {effect : Effect}
    (ran : run directory (.countEntries config) = .ok effect) : effect.saved = none := by
  simp only [run] at ran
  split at ran
  · split at ran
    · cases ran
      rfl
    · cases ran
  · cases ran

end Command

namespace Disk

variable (disk : Disk) {α : Type}

def write (name content : String) (machine : Machine) : Bool × Machine :=
  match disk machine.files name content with
  | none => (true, machine.store name (.text content))
  | some left => (false, machine.store name left)

def host : Host (StateM Machine) where
  read name := return (← get).files name
  print text := modify fun machine => machine.print text
  write name content := modifyGet (disk.write name content)

/-- The run of a command on a machine. -/
def runs (command : Command) (machine : Machine) : Except HostFault Unit × Machine :=
  (command.perform disk.host).run.run machine

/-- Prints and saves what a command says. -/
def carryOut (machine : Machine) (effect : Effect) : Except HostFault Unit × Machine :=
  let shown := machine.print effect.printed
  match effect.saved with
  | none => (.ok (), shown)
  | some (name, content) =>
    let (written, after) := disk.write name content shown
    (if written then .ok () else .error (.writingSettings name), after)

theorem run_attempt_bind (outcome : Except CommandFault α)
    (next : α → ExceptT HostFault (StateM Machine) Unit) (machine : Machine) :
    (Host.attempt outcome >>= next).run.run machine =
      machine.proceed outcome fun value => (next value).run.run machine := by
  cases outcome <;> rfl

theorem run_load_bind (read : Directory → String → Except CommandFault α) (name : String)
    (next : α → ExceptT HostFault (StateM Machine) Unit) (machine : Machine) :
    (disk.host.load read name >>= next).run.run machine =
      machine.proceed (read (fun _ => machine.files name) name)
        fun value => (next value).run.run machine :=
  run_attempt_bind _ next machine

theorem run_print_bind (text : String) (next : Unit → ExceptT HostFault (StateM Machine) Unit)
    (machine : Machine) :
    ((disk.host.print text : ExceptT HostFault (StateM Machine) Unit) >>= next).run.run machine =
      (next ()).run.run (machine.print text) := rfl

theorem run_write_bind (name content : String)
    (next : Bool → ExceptT HostFault (StateM Machine) Unit) (machine : Machine) :
    ((disk.host.write name content : ExceptT HostFault (StateM Machine) Bool) >>=
        next).run.run machine =
      (next (disk.write name content machine).1).run.run
        (disk.write name content machine).2 := rfl

variable (machine : Machine)

theorem run_performShown (command : Command) (name : String)
    (alone : command.run (fun _ => machine.files name) = command.run machine.files)
    (shows : ∀ effect, command.run machine.files = .ok effect → effect.saved = none) :
    (command.performShown disk.host name).run.run machine =
      machine.proceed (command.run machine.files) (disk.carryOut machine) := by
  rw [Command.performShown, run_load_bind, alone]
  cases outcome : command.run machine.files with
  | error fault => rfl
  | ok effect =>
      simp only [Machine.proceed, carryOut, shows effect outcome]
      rfl

theorem run_performRender (document settingsFile : String) (flags : RenderFlags) :
    (Command.performRender disk.host document settingsFile flags).run.run machine =
      machine.proceed (Command.run machine.files (.render document settingsFile flags))
        (disk.carryOut machine) := by
  rw [Command.performRender, run_load_bind, Command.run, Machine.proceed_bind]
  congr 1
  funext root
  rw [run_load_bind, Machine.proceed_bind]
  congr 1
  funext stored
  rw [run_attempt_bind, Machine.proceed_bind]
  congr 1
  funext render
  obtain ⟨printed, table⟩ := render
  rw [run_print_bind]
  cases flags.save with
  | false => rfl
  | true =>
      simp only [if_true]
      rw [run_write_bind]
      simp only [Machine.proceed, carryOut, pure, Except.pure]
      cases (disk.write settingsFile _ (machine.print printed)).1 <;> rfl

/-- A command on a machine does what it says that it does in the directory. -/
theorem runs_eq (command : Command) :
    disk.runs command machine =
      machine.proceed (command.run machine.files) (disk.carryOut machine) := by
  cases command with
  | convert document =>
      apply run_performShown
      · rfl
      · intro effect ran
        obtain ⟨root, -, ran⟩ := exists_of_bind ran
        cases ran
        rfl
  | render document settingsFile flags => exact disk.run_performRender machine _ _ _
  | countEntries config =>
      apply run_performShown
      · rfl
      · intro effect ran
        exact Command.saved_of_run_countEntries ran

theorem carryOut_unsaved {effect : Effect} (unsaved : effect.saved = none) :
    disk.carryOut machine effect = (.ok (), machine.print effect.printed) := by
  rw [carryOut, unsaved]

theorem fault_of_carryOut {effect : Effect} {name text : String} {fault : HostFault}
    {after : Machine} (saved : effect.saved = some (name, text))
    (fails : disk.carryOut machine effect = (.error fault, after)) :
    fault = .writingSettings name := by
  simp only [carryOut, saved, Prod.mk.injEq] at fails
  obtain ⟨fails, -⟩ := fails
  split at fails
  · cases fails
  · exact (Except.error.inj fails).symm

/-- A rendering fails where its document cannot be rendered.  A rendering that
fails for anything but its saving has printed nothing and leaves all files as
they are, and one that does not save leaves them in any case. -/
theorem runs_render (document settingsFile : String) (flags : RenderFlags) :
    (∀ content fault, machine.files document = .text content →
      Command.Unrenderable document content flags fault →
      ∃ reported, disk.runs (.render document settingsFile flags) machine =
          (.error (.command reported), machine) ∧
        (machine.files settingsFile ≠ .unreadable → reported = fault)) ∧
    (∀ fault after, disk.runs (.render document settingsFile flags) machine =
      (.error fault, after) → fault ≠ .writingSettings settingsFile → after = machine) ∧
    (flags.save = false →
      (disk.runs (.render document settingsFile flags) machine).2.files = machine.files) := by
  rw [runs_eq]
  refine ⟨?_, ?_, ?_⟩
  · intro content fault found unrenderable
    obtain ⟨reported, fails, why⟩ := unrenderable.run_render found settingsFile
    exact ⟨reported, by rw [fails]; rfl, why⟩
  · intro fault after ran other
    cases outcome : Command.run machine.files (.render document settingsFile flags) with
    | error fault =>
        rw [outcome] at ran
        cases ran
        rfl
    | ok effect =>
        rw [outcome] at ran
        obtain ⟨text, saved⟩ := Command.saved_of_run_render outcome
        split at saved
        · exact absurd (disk.fault_of_carryOut machine saved ran) other
        · rw [Machine.proceed, disk.carryOut_unsaved machine saved] at ran
          cases ran
  · intro keeps
    cases ran : Command.run machine.files (.render document settingsFile flags) with
    | error fault => rfl
    | ok effect =>
        obtain ⟨text, saved⟩ := Command.saved_of_run_render ran
        rw [keeps] at saved
        rw [Machine.proceed, disk.carryOut_unsaved machine saved]
        rfl

/-- A frame with the marker for its name is not printed as marked text, and
neither its source text nor its config is left anywhere. -/
theorem runs_render_markerName :
    let machine : Machine := ⟨.ofFiles
      [("doc.json", "\x7b\"root\":\x7b\"type\":\"FRAME\",\"name\":\"\\u000f\"\x7d\x7d")], ""⟩
    let literal := "// \x0f\nBox \x7b\n    // empty\n\x7d\n"
    let command := Command.render "doc.json" "kompose.json" { marked := true, save := true }
    Disk.runs (fun _ _ _ => none) command machine =
      (.error (.command (.marker (.collision literal))), machine) ∧
    machine.files "kompose.json" = .absent := by
  intro machine literal command
  let content := "\x7b\"root\":\x7b\"type\":\"FRAME\",\"name\":\"\\u000f\"\x7d\x7d"
  have clash : ((Document.parse? content).bind Document.layout?).map (fun root =>
      (Command.renderTree root).map fun rendered => rendered.1.markedText) =
        some (.ok (.error (.collision literal))) := by
    decide +kernel
  obtain ⟨root, found, clash⟩ := Option.map_eq_some_iff.mp clash
  obtain ⟨document, parsed, laidOut⟩ := Option.bind_eq_some_iff.mp found
  cases rendered : Command.renderTree root with
  | error fault =>
      rw [rendered] at clash
      cases clash
  | ok result =>
      rw [rendered] at clash
      obtain ⟨fails, -⟩ := runs_render (fun _ _ _ => none) machine "doc.json" "kompose.json"
        { marked := true, save := true }
      obtain ⟨reported, ran, why⟩ := fails content (.marker (.collision literal)) rfl
        (.clashing parsed laidOut rendered rfl (Except.ok.inj clash))
      refine ⟨?_, rfl⟩
      rw [ran, why (by decide)]

end Disk

end DesignLayout
