import AutomatonGrammar.Proofs.Command.Steps
import AutomatonGrammar.Proofs.Record.Document

/-!
# What a command leaves behind

A command loads one automaton (`Source.Gives`, `Folder.Holds`) and puts it to one use. Up to the one file
that is made every step leaves the printed text and the folder as they are, and behind that file, or behind
the first print, no step fails. So a command that fails has printed nothing and changed nothing, apart from
what a renderer did that was started in the folder as it was; one that ends well has changed the file that
it was told to write, and no other (`Request.run_traces`).

    Ends (At "" f) (c.perform w) (loaded, printed and left) (nothing printed, and nothing could be left)
                                                                                (Command.ends_perform)
-/

namespace AutomatonGrammar

variable {filter : Log.Filter} {renderer : Option Diagram.Renderer} {s : Source} {t : String}
  {f g : Folder} {a : Automaton}

/-! ## Loading -/

namespace Source

/-- The automaton is the one that the source describes: that of the record in its file if it names one, else
that of its fields. -/
def Gives (s : Source) (f : Folder) (a : Automaton) : Prop :=
  match s.json with
  | some path => f.Holds path a
  | none => s.form.read = .ok a

theorem gives_record {path : String} (h : s.json = some path) : s.Gives f a ↔ f.Holds path a := by
  rw [Gives, h]

theorem gives_form (h : s.json = none) : s.Gives f a ↔ s.form.read = .ok a := by
  rw [Gives, h]

theorem Gives.unique {b : Automaton} (ha : s.Gives f a) (hb : s.Gives f b) : a = b := by
  cases hjson : s.json with
  | none =>
    rw [gives_form hjson] at ha hb
    exact Except.ok.inj (ha.symm.trans hb)
  | some path =>
    rw [gives_record hjson, Folder.holds_iff] at ha hb
    exact Except.ok.inj (ha.symm.trans hb)

/-- The automaton passes the check of the source, if there is one. -/
def Accepts (s : Source) (a : Automaton) : Prop := s.strict = true → a.validate = .ok ()

end Source

namespace Surroundings

/-- A source gives its automaton, or there is none that it could give. -/
theorem ends_loadUnchecked (s : Source) : Ends (At t f) ((console filter renderer).loadUnchecked s)
    (fun a u g => At t f u g ∧ s.Gives f a) (fun u g => At t f u g ∧ ∀ a, ¬ s.Gives f a) := by
  unfold loadUnchecked
  cases hjson : s.json with
  | some path =>
    simp only [s.gives_record hjson]
    exact (ends_loadRecord path).adapt _
  | none =>
    simp only [s.gives_form hjson]
    refine ((Ends.ofExcept _).mono (fun _ _ hu => hu) ?_ ?_).adapt _
    · exact fun _ _ _ ⟨hu, hread⟩ => ⟨hu, mapError_eq_ok_iff.1 hread⟩
    · exact fun _ _ ⟨hu, hread⟩ => ⟨hu, fun b hb => hread b (mapError_eq_ok_iff.2 hb)⟩

theorem ends_check (strict : Bool) (a : Automaton) :
    Ends (At t f) (a.check strict : ExceptT Error (StateM Console) Unit)
      (fun _ u g => At t f u g ∧ (strict = true → a.validate = .ok ()))
      (fun u g => At t f u g ∧ ¬ (strict = true → a.validate = .ok ())) := by
  unfold Automaton.check
  cases strict with
  | false => exact .pure fun _ _ hu => ⟨hu, fun h => absurd h Bool.false_ne_true⟩
  | true =>
    refine (Ends.ofExcept _).mono (fun _ _ hu => hu) ?_ ?_
    · exact fun _ _ _ ⟨hu, hvalid⟩ => ⟨hu, fun _ => mapError_eq_ok_iff.1 hvalid⟩
    · exact fun _ _ ⟨hu, hvalid⟩ => ⟨hu, fun h => hvalid () (mapError_eq_ok_iff.2 (h rfl))⟩

/-- An automaton gets past the check as it is, or the check refuses it. -/
theorem ends_settle (s : Source) (a : Automaton) :
    Ends (At t f) ((console filter renderer).settle s.strict a)
      (fun b u g => At t f u g ∧ s.Accepts a ∧ b = a) (fun u g => At t f u g ∧ ¬ s.Accepts a) := by
  refine ((ends_check s.strict a).adapt _).bind fun _ => Ends.assume fun haccepts => ?_
  refine (Ends.lift (after_logAll _)).bind fun _ => (Ends.lift (after_log _)).bind fun _ => ?_
  exact .pure fun _ _ hu => ⟨hu, haccepts, rfl⟩

/-- To load an automaton is to find the one that the source gives and to check it. Nothing has been printed
or written by then. -/
theorem ends_load (s : Source) : Ends (At t f) ((console filter renderer).load s)
    (fun a u g => At t f u g ∧ s.Gives f a ∧ s.Accepts a)
    (fun u g => At t f u g ∧ ∀ a, s.Gives f a → ¬ s.Accepts a) := by
  refine ((ends_loadUnchecked s).mono (fun _ _ hu => hu) (fun _ _ _ hu => hu) ?_).bind fun a =>
    Ends.assume fun ha => (ends_settle s a).mono (fun _ _ hu => hu) ?_ ?_
  · rintro u g ⟨hu, hnone⟩
    exact ⟨hu, fun a ha => absurd ha (hnone a)⟩
  · rintro b u g ⟨hu, haccepts, rfl⟩
    exact ⟨hu, ha, haccepts⟩
  · rintro u g ⟨hu, hrefused⟩
    refine ⟨hu, fun b hb => ?_⟩
    rwa [hb.unique ha]

/-! ## Uses -/

/-- What is printed is the grammar, as a report or line by line. -/
theorem after_convert (a : Automaton) (long : Bool) : After (At t f)
    ((console filter renderer).convert a long) fun _ => At (t ++ if long then a.grammar.report
      else String.join (a.grammar.lines.map (· ++ "\n"))) f := by
  refine (after_log _).bind fun _ => ?_
  cases long with
  | true => exact after_print _
  | false => exact after_printLines _

/-- A record is saved, or the folder is as it was and there is no way to write it. -/
theorem ends_save (o : Output) : Ends (At t f) ((console filter renderer).save o)
    (fun _ u g => u = t ∧ f.Rewritten o.path o.text g)
    (fun u g => At t f u g ∧ ∀ g', ¬ f.Rewritten o.path o.text g') := by
  simp only [Folder.rewritten_iff]
  exact (ends_put o).bind fun _ => .lift (after_log _)

/-- What the making of a diagram makes of a folder. -/
def Draws (renderer : Option Diagram.Renderer) (f : Folder) (o : Output) (format : String) (g : Folder) :
    Prop :=
  if format = "dot" then f.Rewritten o.path o.text g
  else ∃ answer, Diagram.answer? renderer f o format = some answer ∧
    answer.status = .exited (.code 0) ∧ g = answer.folder

/-- A diagram is made, or it cannot be, and then the folder is as it was or as a renderer left it. -/
theorem ends_draw (o : Output) (format : String) : Ends (At t f) ((console filter renderer).draw o format)
    (fun _ u g => u = t ∧ Draws renderer f o format g)
    (fun u g => u = t ∧ (g = f ∨ format ≠ "dot" ∧
      ∃ answer, Diagram.answer? renderer f o format = some answer ∧ g = answer.folder) ∧
      ∀ g', ¬ Draws renderer f o format g') := by
  refine Ends.bind ?_ fun _ => .lift (after_log _)
  unfold makeFile Draws
  by_cases hformat : format = "dot"
  · simp only [if_pos hformat, Folder.rewritten_iff]
    exact (ends_put o).mono (fun _ _ hu => hu) (fun _ _ _ hu => hu) fun _ _ ⟨hu, hnot⟩ =>
      ⟨hu.1, .inl hu.2, hnot⟩
  · simp only [if_neg hformat]
    refine (ends_renderFile o format).mono (fun _ _ hu => hu) (fun _ _ _ hu => hu) ?_
    rintro u g ⟨hu, hg, hnot⟩
    refine ⟨hu, hg.imp_right fun hleft => ⟨hformat, hleft⟩, ?_⟩
    rintro g' ⟨answer, hanswer, hstatus, -⟩
    exact hnot answer hanswer hstatus

end Surroundings

/-! ## Commands -/

namespace Command

/-- The automaton is the one that the command has to do with. -/
def Loads (f : Folder) (a : Automaton) : Command → Prop
  | convert s _ | plot s _ _ _ _ | save s _ => s.Gives f a
  | describe file => f.Holds file a

/-- Whether an automaton with undeclared names is refused. -/
def isStrict : Command → Bool
  | convert s _ | plot s _ _ _ _ | save s _ => s.strict
  | describe _ => false

/-- What a command prints of the automaton that it has loaded. -/
def printed (a : Automaton) : Command → String
  | convert _ long =>
    if long then a.grammar.report else String.join (a.grammar.lines.map (· ++ "\n"))
  | describe _ => String.join ((Form.ofAutomaton a).description.map (· ++ "\n"))
  | plot _ _ _ _ _ | save _ _ => ""

/-- What a command does to a folder with the automaton that it has loaded, where nothing fails. -/
def Leaves (renderer : Option Diagram.Renderer) (a : Automaton) (f g : Folder) : Command → Prop
  | convert _ _ | describe _ => g = f
  | save _ target => f.Rewritten target (Record.write a) g
  | plot _ output format vertical merged =>
    let diagram := a.diagram { horizontal := !vertical, merged }
    if format = "dot" then f.Rewritten (output ++ ".dot") diagram.text g
    else ∃ answer, Diagram.answer? renderer f (diagram.output output format) format = some answer ∧
      answer.status = .exited (.code 0) ∧ g = answer.folder

/-- The folder is as a renderer leaves it that the command has started in the first one. -/
def IsLeftByRenderer (renderer : Option Diagram.Renderer) (a : Automaton) (f g : Folder) :
    Command → Prop
  | plot _ output format vertical merged =>
    let diagram := a.diagram { horizontal := !vertical, merged }
    format ≠ "dot" ∧
      ∃ answer, Diagram.answer? renderer f (diagram.output output format) format = some answer ∧
        g = answer.folder
  | _ => False

/-- What holds where a command has ended well. -/
def EndsWell (renderer : Option Diagram.Renderer) (f : Folder) (c : Command) : Assertion :=
  fun t g => ∃ a, c.Loads f a ∧ (c.isStrict = true → a.validate = .ok ()) ∧ t = c.printed a ∧
    c.Leaves renderer a f g

/-- What holds where a command has failed. -/
def FailsTracelessly (renderer : Option Diagram.Renderer) (f : Folder) (c : Command) : Assertion :=
  fun t g => t = "" ∧
    (g = f ∨ ∃ a, c.Loads f a ∧ (c.isStrict = true → a.validate = .ok ()) ∧
      c.IsLeftByRenderer renderer a f g) ∧
    ∀ u g', ¬ c.EndsWell renderer f u g'

theorem leaves_plot_iff {output format : String} {vertical merged : Bool} :
    (plot s output format vertical merged).Leaves renderer a f g ↔ Surroundings.Draws renderer f
      ((a.diagram { horizontal := !vertical, merged }).output output format) format g := by
  rw [Leaves, Surroundings.Draws]
  by_cases hformat : format = "dot"
  · subst hformat
    have hpath : output ++ "." ++ "dot" = output ++ ".dot" := by rw [String.append_assoc]; rfl
    rw [if_pos rfl, if_pos rfl, ← hpath]
    exact .rfl
  · rw [if_neg hformat, if_neg hformat]

/-- A command that puts the automaton of its source to a use ends as the use does. -/
theorem ends_load_bind {c : Command} {s : Source} {use : Automaton → ExceptT Failure (StateM Console) Unit}
    (hloads : ∀ a, c.Loads f a ↔ s.Gives f a) (hstrict : c.isStrict = s.strict)
    (huse : ∀ a, Ends (At "" f) (use a) (fun _ t g => t = c.printed a ∧ c.Leaves renderer a f g)
      (fun t g => t = "" ∧ (g = f ∨ c.IsLeftByRenderer renderer a f g) ∧
        ∀ g', ¬ c.Leaves renderer a f g')) :
    Ends (At "" f) (Surroundings.load (.console filter renderer) s >>= use)
      (fun _ => c.EndsWell renderer f) (c.FailsTracelessly renderer f) := by
  unfold FailsTracelessly EndsWell
  simp only [hstrict, hloads]
  refine ((Surroundings.ends_load s).mono (fun _ _ ht => ht) (fun _ _ _ ht => ht) ?_).bind fun a =>
    Ends.assume fun ⟨ha, hok⟩ => (huse a).mono (fun _ _ ht => ht) ?_ ?_
  · rintro t g ⟨⟨ht, hg⟩, hnone⟩
    refine ⟨ht, .inl hg, ?_⟩
    rintro u g' ⟨a, ha, hok, -⟩
    exact hnone a ha hok
  · rintro _ t g ⟨ht, hleaves⟩
    exact ⟨a, ha, hok, ht, hleaves⟩
  · rintro t g ⟨ht, hg, hnot⟩
    refine ⟨ht, hg.imp_right fun hleft => ⟨a, ha, hok, hleft⟩, ?_⟩
    rintro u g' ⟨b, hb, -, -, hleaves⟩
    rw [hb.unique ha] at hleaves
    exact hnot g' hleaves

/-- The run of a command from its first step to its last: it ends well, or it fails without a trace, and then
it could not have ended well. -/
theorem ends_perform (c : Command) (filter : Log.Filter) (renderer : Option Diagram.Renderer) (f : Folder) :
    Ends (At "" f) (c.perform (.console filter renderer)) (fun _ => c.EndsWell renderer f)
      (c.FailsTracelessly renderer f) := by
  cases c with
  | convert s long =>
    refine ends_load_bind (fun _ => .rfl) rfl fun a => ?_
    exact .lift ((Surroundings.after_convert a long).mono (fun _ _ ht => ht) fun _ _ _ ⟨ht, hg⟩ =>
      ⟨ht.trans String.empty_append, hg⟩)
  | plot s output format vertical merged =>
    refine ends_load_bind (fun _ => .rfl) rfl fun a => ?_
    refine .adapt ((Ends.lift (Surroundings.after_logAll _)).bind fun _ => ?_) _
    simp only [leaves_plot_iff]
    exact Surroundings.ends_draw _ format
  | save s target =>
    refine ends_load_bind (fun _ => .rfl) rfl fun a => ?_
    refine ((Surroundings.ends_save _).adapt _).mono (fun _ _ ht => ht) (fun _ _ _ ht => ht) ?_
    exact fun t g ⟨⟨ht, hg⟩, hnot⟩ => ⟨ht, .inl hg, hnot⟩
  | describe file =>
    refine (((Surroundings.ends_loadRecord file).adapt _).mono (fun _ _ ht => ht)
      (fun _ _ _ ht => ht) ?_).bind fun a => Ends.assume fun ha => .lift ?_
    · rintro t g ⟨⟨ht, hg⟩, hnone⟩
      refine ⟨ht, .inl hg, ?_⟩
      rintro u g' ⟨a, ha, -⟩
      exact hnone a ha
    · refine (Surroundings.after_printLines _).mono (fun _ _ ht => ht) ?_
      rintro _ u g ⟨hu, hg⟩
      exact ⟨a, ha, fun h => absurd h Bool.false_ne_true, hu.trans String.empty_append, hg⟩

theorem Loads.unique {b : Automaton} {c : Command} (ha : c.Loads f a) (hb : c.Loads f b) : a = b := by
  cases c with
  | describe file =>
    have ha : ({ json := some file } : Source).Gives f a := ha
    exact ha.unique hb
  | _ => exact Source.Gives.unique ha hb

theorem Leaves.unique {c : Command} {g' : Folder} (h : c.Leaves renderer a f g)
    (h' : c.Leaves renderer a f g') : g = g' := by
  cases c with
  | convert s long => exact h.trans h'.symm
  | describe file => exact h.trans h'.symm
  | save s target => exact Folder.Rewritten.unique h h'
  | plot s output format vertical merged =>
    rw [Leaves] at h h'
    split at h
    · next hformat =>
      rw [if_pos hformat] at h'
      exact Folder.Rewritten.unique h h'
    · next hformat =>
      rw [if_neg hformat] at h'
      obtain ⟨answer, hanswer, -, rfl⟩ := h
      obtain ⟨answer', hanswer', -, rfl⟩ := h'
      cases hanswer.symm.trans hanswer'
      rfl

/-- There is one way to end well, which the folder decides. -/
theorem EndsWell.unique {c : Command} {u : String} {g' : Folder} (h : c.EndsWell renderer f t g)
    (h' : c.EndsWell renderer f u g') : t = u ∧ g = g' := by
  obtain ⟨a, ha, -, rfl, hleaves⟩ := h
  obtain ⟨b, hb, -, rfl, hleaves'⟩ := h'
  obtain rfl := ha.unique hb
  exact ⟨rfl, hleaves.unique hleaves'⟩

end Command

/-- What a run leaves whose command ends so. -/
def Outcome.ofResult : Except Failure Unit × Console → Outcome
  | (.ok _, c) => { c with code := 0 }
  | (.error failure, c) => { c with code := 1, stderr := c.stderr ++ failure.report }

namespace Request

variable {arguments : List String} {c : Command}

theorem runWith_of_parse (h : parse arguments = .ok (.command c)) (filter : Log.Filter)
    (renderer : Option Diagram.Renderer) (f : Folder) : runWith filter arguments renderer f =
      .ofResult ((c.perform (.console filter renderer)).run.run { folder := f }) := by
  rcases hrun : (c.perform (.console filter renderer)).run.run { folder := f } with ⟨failure | ⟨⟩, c'⟩
  · simp only [runWith, perform, h, StateT.run_bind, hrun]
    rfl
  · simp only [runWith, perform, h, StateT.run_bind, hrun]
    rfl

/-- A run ends well, or it fails without a trace. -/
theorem runWith_cases (h : parse arguments = .ok (.command c)) (filter : Log.Filter)
    (renderer : Option Diagram.Renderer) (f : Folder) : let o := runWith filter arguments renderer f
      o.code = 0 ∧ c.EndsWell renderer f o.stdout o.folder ∨
      o.code = 1 ∧ c.FailsTracelessly renderer f o.stdout o.folder := by
  have hends := c.ends_perform filter renderer f { folder := f } ⟨rfl, rfl⟩
  rw [runWith_of_parse h]
  generalize (c.perform (.console filter renderer)).run.run { folder := f } = result at hends ⊢
  obtain ⟨failure | _, console⟩ := result
  · exact .inr ⟨rfl, hends⟩
  · exact .inl ⟨rfl, hends⟩

/-- A run ends with code 0 just where its command can end well. -/
theorem ends_well_iff (h : parse arguments = .ok (.command c)) :
    (runWith filter arguments renderer f).code = 0 ∧ (runWith filter arguments renderer f).stdout = t ∧
      (runWith filter arguments renderer f).folder = g ↔ c.EndsWell renderer f t g := by
  obtain ⟨hcode, hwell⟩ | ⟨hcode, -, -, hnot⟩ := runWith_cases h filter renderer f
  · constructor
    · rintro ⟨-, rfl, rfl⟩
      exact hwell
    · exact fun hwell' => ⟨hcode, hwell.unique hwell'⟩
  · refine iff_of_false (fun hzero => ?_) (hnot t g)
    cases hcode.symm.trans hzero.1

/-- **A command that fails leaves no trace, and one that ends well touches only its own output.** With code
1 nothing has been printed and the folder is as it was, or as a renderer left it that was started in the
folder as it was. The code is 0 exactly if an automaton is loaded, which passes the check if the command is
strict, what is printed is the grammar or the description of that automaton, and the folder is what the
command makes of it: the same after printing, and otherwise changed in the one file that is written, which
holds the record or the diagram of that automaton. -/
theorem run_traces (h : parse arguments = .ok (.command c)) (filter : Log.Filter)
    (renderer : Option Diagram.Renderer) (folder : Folder) :
    let o := runWith filter arguments renderer folder
    (o.code = 0 ∨ o.code = 1) ∧
    (o.code = 1 → o.stdout = "" ∧
      (o.folder = folder ∨ ∃ a, c.Loads folder a ∧ (c.isStrict = true → a.validate = .ok ()) ∧
        c.IsLeftByRenderer renderer a folder o.folder)) ∧
    ∀ text g, o.code = 0 ∧ o.stdout = text ∧ o.folder = g ↔ ∃ a, c.Loads folder a ∧
      (c.isStrict = true → a.validate = .ok ()) ∧ text = c.printed a ∧
        c.Leaves renderer a folder g := by
  refine ⟨?_, fun hone => ?_, fun text g => ends_well_iff h⟩
  · exact (runWith_cases h filter renderer folder).imp And.left And.left
  · obtain ⟨hzero, -⟩ | ⟨-, hprinted, hfolder, -⟩ := runWith_cases h filter renderer folder
    · exact absurd (hzero.symm.trans hone) Nat.zero_ne_one
    · exact ⟨hprinted, hfolder⟩

/-- Names with a quote, a backslash and a letter beyond the first plane, and one that is not declared. -/
def quotedNames : Source where
  states := some "say \"hi\", 𝄞"
  alphabet := some "ε,\\"
  start := some "𝄞"
  accepting := some "lost"
  transitions := ["𝄞,ε->say \"hi\"", "𝄞,\\->lost"]

/-- The options of a command line that fill it in. -/
def fieldsOfQuotedNames : List String :=
  ["--states", "say \"hi\", 𝄞", "--alphabet=ε,\\", "--start", "𝄞", "--accept", "lost",
    "-t", "𝄞,ε->say \"hi\"", "--transitions=𝄞,\\->lost"]

/-- The command line that saves it. -/
def savingQuotedNames : List String := "export" :: (fieldsOfQuotedNames ++ ["--to", "a.json"])

theorem parse_savingQuotedNames :
    parse savingQuotedNames = .ok (.command (.save quotedNames "a.json")) := by
  rfl

theorem code_savingQuotedNames (filter : Log.Filter) :
    (runWith filter savingQuotedNames none .empty).code = 0 := by
  obtain ⟨a, hread⟩ : ∃ a, quotedNames.form.read = .ok a := ⟨_, by rfl⟩
  have hwritten : Folder.empty.Rewritten "a.json" (Record.write a)
      (Folder.empty.put ["a.json"] (.text (Record.write a))) :=
    Folder.rewritten_iff.2 (Folder.place_eq_ok_iff.2 ⟨_, Record.emptyFolder_admits, rfl⟩)
  exact ((ends_well_iff parse_savingQuotedNames).2
    ⟨a, hread, fun h => absurd h Bool.false_ne_true, rfl, hwritten⟩).1

/-- A transition to a state that is not declared. -/
def strayTarget : Source where
  states := some "s"
  alphabet := some "a"
  start := some "s"
  transitions := ["s,a->lost"]
  strict := true

/-- The command line that does not save it. -/
def savingStrayTarget : List String :=
  ["export", "--strict", "--states=s", "--alphabet=a", "--start=s", "-ts,a->lost", "--to=a.json"]

/-- A renderer that fails when it has begun to write. -/
def brokenRenderer : Diagram.Renderer := fun _ folder =>
  ⟨1, "Format: \"bogus\" not recognized", folder.put ["dfa_diagram.bogus"] (.text "")⟩

/-- A folder on a disk that is full. -/
def fullDisk : Folder where
  files := ∅
  ban? := fun _ => some ⟨"No space left on device (os error 28)", true⟩

theorem run_traces_saved_refused_broken_full :
    (∃ a : Automaton, Folder.empty.Rewritten "a.json" (Record.write a)
      (run savingQuotedNames none .empty).folder) ∧
    ((run savingStrayTarget none .empty).code = 1 ∧ (run savingStrayTarget none .empty).stdout = "" ∧
      (run savingStrayTarget none .empty).folder = .empty) ∧
    ((run ["plot", "-fbogus"] (some brokenRenderer) .empty).code = 1 ∧
      (run ["plot", "-fbogus"] (some brokenRenderer) .empty).stdout = "") ∧
    (run ["export", "--to=a.json"] none fullDisk).code = 1 ∧
    (run ["export", "--to=a.json"] none fullDisk).folder = fullDisk := by
  unfold run
  refine ⟨?saved, ?refused, ?broken, ?full⟩
  case saved =>
    obtain ⟨-, -, hwell⟩ := run_traces parse_savingQuotedNames .default none .empty
    obtain ⟨a, -, -, -, hwritten⟩ := (hwell _ _).1 ⟨code_savingQuotedNames _, rfl, rfl⟩
    exact ⟨a, hwritten⟩
  case refused =>
    have hparse : parse savingStrayTarget = .ok (.command (.save strayTarget "a.json")) := by rfl
    have hcode : (runWith .default savingStrayTarget none .empty).code = 1 := by rfl
    obtain ⟨-, hfailed, -⟩ := run_traces hparse .default none .empty
    -- a command that saves starts no renderer
    obtain ⟨hprinted, hsame | ⟨a, -, -, hleft⟩⟩ := hfailed hcode
    · exact ⟨hcode, hprinted, hsame⟩
    · cases hleft
  case broken =>
    have hparse : parse ["plot", "-fbogus"] =
        .ok (.command (.plot {} "dfa_diagram" "bogus" false false)) := by rfl
    obtain ⟨hzero | hone, hfailed, hwell⟩ := run_traces hparse .default (some brokenRenderer) .empty
    · obtain ⟨a, -, -, -, hleaves⟩ := (hwell _ _).1 ⟨hzero, rfl, rfl⟩
      rw [Command.Leaves, if_neg (by decide)] at hleaves
      obtain ⟨answer, hanswer, hstatus, -⟩ := hleaves
      cases hanswer
      cases hstatus
    · exact ⟨hone, (hfailed hone).1⟩
  case full =>
    have hparse : parse ["export", "--to=a.json"] = .ok (.command (.save {} "a.json")) := by rfl
    obtain ⟨hzero | hone, hfailed, hwell⟩ := run_traces hparse .default none fullDisk
    · obtain ⟨a, -, -, -, hleaves⟩ := (hwell _ _).1 ⟨hzero, rfl, rfl⟩
      obtain ⟨l, -, -, hban, -⟩ := hleaves.files
      cases hban
    · obtain ⟨-, hsame | ⟨a, -, -, hleft⟩⟩ := hfailed hone
      · exact ⟨hone, hsame⟩
      · cases hleft

end Request

end AutomatonGrammar
