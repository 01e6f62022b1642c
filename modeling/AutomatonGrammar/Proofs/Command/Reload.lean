import AutomatonGrammar.Proofs.Command.Traces

/-!
# Commands on a saved automaton

What a command does depends on its source only through the automaton that is loaded from it, or the
failure. A form that can be saved at all has been read to an automaton, and the record gives that automaton
back. The checks and warnings come after the loading, and nothing of what follows looks at what has been
shown before (`Blind`). So whatever is done with the record is done with the form as well, and the other way
round, but for the one entry of the log that only the reading of a record makes: a filter that shows it
shows it in front of all else (`Request.run_record_eq_run_form`).
-/

namespace AutomatonGrammar

variable {filter : Log.Filter} {renderer : Option Diagram.Renderer}

/-! ## Steps that do not look back -/

namespace Surroundings

theorem blind_logAll (es : List Log.Entry) : Blind ((console filter renderer).logAll es) :=
  .forM blind_log es

theorem blind_printLines (lines : List String) : Blind ((console filter renderer).printLines lines) :=
  .forM (fun _ _ _ => rfl) lines

theorem blind_write (path text : String) : Blind ((console filter renderer).write path text) := by
  intro c shown
  show Console.write path text (c.behind shown) =
    ((Console.write path text c).1, (Console.write path text c).2.behind shown)
  have hfolder : (c.behind shown).folder = c.folder := rfl
  rw [Console.write, Console.write, hfolder]
  cases c.folder.write path text with
  | error fault => rfl
  | ok folder => rfl

theorem blind_settle (strict : Bool) (a : Automaton) :
    Blind ((console filter renderer).settle strict a).run := by
  have hcheck : Blind (a.check strict : ExceptT Error (StateM Console) Unit).run := by
    cases strict with
    | false => exact .pure _
    | true => exact fun _ _ => rfl
  exact (hcheck.adapt_run _).bind_run fun _ => (blind_logAll _).lift_run.bind_run fun _ =>
    (blind_log _).lift_run.bind_run fun _ => .pure _

theorem blind_convert (a : Automaton) (long : Bool) : Blind ((console filter renderer).convert a long) := by
  refine (blind_log _).bind fun _ => ?_
  cases long with
  | true => exact fun _ _ => rfl
  | false => exact blind_printLines _

theorem blind_put (o : Output) : Blind ((console filter renderer).put o).run :=
  (blind_write _ _).lift_run.bind_run fun _ _ _ => rfl

theorem blind_save (o : Output) : Blind ((console filter renderer).save o).run :=
  (blind_put o).bind_run fun _ => (blind_log _).lift_run

theorem blind_plot (a : Automaton) (output : String) (options : Diagram.Options) :
    Blind ((console filter renderer).plot a output "dot" options).run :=
  (blind_logAll _).lift_run.bind_run fun _ => (blind_put _).bind_run fun _ => (blind_log _).lift_run

end Surroundings

namespace Command

/-- What an automaton is loaded for, where no renderer is needed. -/
inductive Use where
  | convert (long : Bool)
  | plot (output : String) (vertical merged : Bool)
  | save (target : String)
deriving DecidableEq, Repr

namespace Use

/-- The command that puts the automaton of a source to a use. -/
def command (u : Use) (s : Source) : Command :=
  match u with
  | convert long => .convert s long
  | plot output vertical merged => .plot s output "dot" vertical merged
  | save target => .save s target

/-- What is done with the automaton, as soon as it is there. -/
def steps (u : Use) (w : Surroundings (StateM Console)) (strict : Bool) (a : Automaton) :
    ExceptT Failure (StateM Console) Unit := do
  let a ← w.settle strict a
  match u with
  | convert long => w.convert a long
  | plot output vertical merged =>
    Stage.during .drawing (w.plot a output "dot" { horizontal := !vertical, merged })
  | save target => Stage.during .saving (w.save (Record.output a target))

theorem perform_command (u : Use) (s : Source) (w : Surroundings (StateM Console)) :
    (u.command s).perform w = w.loadUnchecked s >>= u.steps w s.strict := by
  cases u with
  | convert long => exact bind_assoc _ _ _
  | plot output vertical merged => exact bind_assoc _ _ _
  | save target => exact bind_assoc _ _ _

theorem blind_steps (u : Use) (strict : Bool) (a : Automaton) :
    Blind (u.steps (.console filter renderer) strict a).run := by
  refine (Surroundings.blind_settle strict a).bind_run fun a => ?_
  cases u with
  | convert long => exact (Surroundings.blind_convert a long).lift_run
  | plot output vertical merged => exact (Surroundings.blind_plot a output _).adapt_run _
  | save target => exact (Surroundings.blind_save _).adapt_run _

end Use

end Command

/-! ## The record and the form -/

namespace Surroundings

variable {s : Source} {a : Automaton} {c : Console}

/-- The fields of a form are not looked for in a file. -/
theorem run_loadUnchecked_form (hjson : s.json = none) (hread : s.form.read = .ok a) :
    ((console filter renderer).loadUnchecked s).run.run c = (.ok a, c) := by
  rw [loadUnchecked, hjson]
  simp only [hread]
  rfl

/-- The reading of a record makes an entry of the log. -/
theorem run_loadUnchecked_record {path : String} (hjson : s.json = some path)
    (hread : c.folder.read path = .ok (Record.write a)) :
    ((console filter renderer).loadUnchecked s).run.run c =
      (.ok a, { c with stderr := c.stderr ++ filter.terminalText (Record.note a) }) := by
  have hcontents : Record.ofContents path (c.folder.read path) = .ok a :=
    Record.ofContents_eq_ok_iff.2 ⟨_, hread, Record.read_write a⟩
  have hload : ((console filter renderer).loadRecord path).run.run c =
      (do
        let a ← Record.ofContents path (c.folder.read path)
        (console filter renderer).log (Record.note a)
        return a : ExceptT Error (StateM Console) Automaton).run.run c := rfl
  rw [hcontents] at hload
  rw [loadUnchecked, hjson]
  show (((console filter renderer).loadRecord path).adapt _).run.run c = _
  show ((((console filter renderer).loadRecord path).run.run c).1.mapError _,
    (((console filter renderer).loadRecord path).run.run c).2) = _
  rw [hload]
  rfl

end Surroundings

/-- What a run leaves, with a text in front of what has been shown. -/
def Outcome.behind (o : Outcome) (text : String) : Outcome := { o with stderr := text ++ o.stderr }

theorem Outcome.ofResult_behind (r : Except Failure Unit) (c : Console) (text : String) :
    ofResult (r, c.behind text) = (ofResult (r, c)).behind text := by
  cases r with
  | ok _ => rfl
  | error failure =>
    show ({ c with stderr := text ++ c.stderr ++ failure.report, code := 1 } : Outcome) =
      { c with stderr := text ++ (c.stderr ++ failure.report), code := 1 }
    rw [String.append_assoc]

namespace Request

variable {saving onRecord onForm : List String} {s : Source} {path : String} {u : Command.Use}
  {strict : Bool} {folder later : Folder}

/-- Saving that ends with code 0 has loaded an automaton and written its record. -/
theorem saved_of_code_eq_zero (hform : s.json = none)
    (hsaving : parse saving = .ok (.command (.save s path)))
    (hcode : (runWith filter saving renderer folder).code = 0) :
    ∃ a, s.form.read = .ok a ∧
      (runWith filter saving renderer folder).folder.read path = .ok (Record.write a) := by
  obtain ⟨a, ha, -, -, hwritten⟩ := (ends_well_iff hsaving).1 ⟨hcode, rfl, rfl⟩
  exact ⟨a, (Source.gives_form hform).1 ha, hwritten.read⟩

/-- A command on a record ends like the same command on a form that has been read to the same automaton,
with what is shown of the reading of the record in front. -/
theorem runWith_record_eq_behind {a : Automaton} (hform : s.json = none) (hread : s.form.read = .ok a)
    (hlater : later.read path = .ok (Record.write a))
    (hrecord : parse onRecord = .ok (.command (u.command { json := some path, strict })))
    (hfields : parse onForm = .ok (.command (u.command { s with strict })))
    (filter : Log.Filter) (renderer : Option Diagram.Renderer) :
    runWith filter onRecord renderer later =
      (runWith filter onForm renderer later).behind (filter.terminalText (Record.note a)) := by
  let c : Console := { folder := later }
  have hshown : ({ c with stderr := c.stderr ++ filter.terminalText (Record.note a) } : Console) =
      c.behind (filter.terminalText (Record.note a)) := by
    rw [Console.behind, String.empty_append, String.append_empty]
  rw [runWith_of_parse hrecord, runWith_of_parse hfields, u.perform_command, u.perform_command,
    run_bind_of_eq_ok (Surroundings.run_loadUnchecked_record rfl hlater), hshown,
    run_bind_of_eq_ok (Surroundings.run_loadUnchecked_form (s := { s with strict }) hform hread),
    u.blind_steps, Outcome.ofResult_behind]
  rfl

/-- **Saving and loading again changes nothing but the log.**  Once the automaton of a form has been saved,
and as long as the file is left as it is, a command on the record ends like the same command on the form:
with the same code, output, warnings or report of a failure, and with the same files. This is so wherever
the entry of the log is not shown that is made when a record is read, as it is where nothing else is asked
for. Where it is shown, it stands in front of what else is shown, and all else is the same. -/
theorem run_record_eq_run_form {saving onRecord onForm : List String} {s : Source} {path : String}
    {u : Command.Use} {strict : Bool} {first : Log.Filter} {folder later : Folder}
    (hform : s.json = none)
    (hsaving : parse saving = .ok (.command (.save s path)))
    (hcode : (runWith first saving renderer folder).code = 0)
    (hlater : later.read path = (runWith first saving renderer folder).folder.read path)
    (hrecord : parse onRecord = .ok (.command (u.command { json := some path, strict })))
    (hfields : parse onForm = .ok (.command (u.command { s with strict }))) :
    run onRecord renderer later = run onForm renderer later ∧
    ∃ a, s.form.read = .ok a ∧ ∀ filter : Log.Filter,
      (filter.shows (Record.note a) = false →
        runWith filter onRecord renderer later = runWith filter onForm renderer later) ∧
      (filter.shows (Record.note a) = true →
        runWith filter onRecord renderer later =
          let o := runWith filter onForm renderer later
          { o with stderr := (Record.note a).terminalLine ++ o.stderr }) := by
  obtain ⟨a, hread, hwritten⟩ := saved_of_code_eq_zero hform hsaving hcode
  have hsame (filter : Log.Filter) :=
    runWith_record_eq_behind hform hread (hlater.trans hwritten) hrecord hfields filter renderer
  have hhidden (filter : Log.Filter) (h : filter.shows (Record.note a) = false) :
      runWith filter onRecord renderer later = runWith filter onForm renderer later := by
    rw [hsame, Log.Filter.terminalText, h, if_neg Bool.false_ne_true, Outcome.behind, String.empty_append]
  refine ⟨hhidden .default rfl, a, hread, fun filter => ⟨hhidden filter, fun h => ?_⟩⟩
  rw [hsame, Log.Filter.terminalText, h, if_pos rfl]
  rfl

theorem run_record_eq_run_form_quotedNames :
    ∃ saved, run savingQuotedNames none .empty = saved ∧ saved.code = 0 ∧
      run ["plot", "--json", "a.json", "-fdot", "--merge-edges"] none saved.folder =
        run ["plot", "-f", "dot", "-t𝄞,ε->say \"hi\"", "-t", "𝄞,\\->lost", "--accept=lost", "--merge-edges",
          "--start=𝄞", "--states", "say \"hi\", 𝄞", "--alphabet=ε,\\"] none saved.folder :=
  ⟨_, rfl, code_savingQuotedNames .default, (run_record_eq_run_form (u := .plot "dfa_diagram" false true)
    rfl parse_savingQuotedNames (code_savingQuotedNames .default) rfl (by rfl) (by rfl)).1⟩

/-- A filter that shows every entry of the log. -/
def everything : Log.Filter := ⟨fun _ => true⟩

/-- Where every entry is shown, the reading of a record is, and there is none where a form is read. -/
theorem stderr_record_ne_stderr_form :
    ∃ saved, runWith everything savingQuotedNames none .empty = saved ∧ saved.code = 0 ∧
      (runWith everything ["convert", "--json", "a.json"] none saved.folder).stderr ≠
        (runWith everything ("convert" :: fieldsOfQuotedNames) none saved.folder).stderr := by
  refine ⟨_, rfl, code_savingQuotedNames _, ?_⟩
  obtain ⟨a, hread, hwritten⟩ :=
    saved_of_code_eq_zero rfl parse_savingQuotedNames (code_savingQuotedNames everything)
  have hfields : parse ("convert" :: fieldsOfQuotedNames) =
      .ok (.command ((Command.Use.convert false).command quotedNames)) := by rfl
  have hrecord : parse ["convert", "--json", "a.json"] =
      .ok (.command ((Command.Use.convert false).command { json := some "a.json" })) := by rfl
  rw [runWith_record_eq_behind rfl hread hwritten hrecord hfields]
  intro h
  have hlength := congrArg String.length h
  rw [Outcome.behind, String.length_append] at hlength
  have hline : (everything.terminalText (Record.note a)).length ≠ 0 := by
    rw [ne_eq, String.length_eq_zero_iff]
    exact Log.Entry.terminalLine_ne_empty _
  omega

end Request

end AutomatonGrammar
