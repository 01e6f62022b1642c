import AutomatonGrammar.Command.Run

/-!
# Steps on a console

What a sequence of steps does is put together from what each of them does. `Ends P steps Q E` says that the
steps, begun where `P` holds of what has been printed and of the folder, end where `Q` holds of their
result and of these, or fail where `E` holds of them. There is a rule for each step and one for sequences
(`Ends.bind`): what a step leaves is what the next one finds. So a failure behind a print or a write would
have to be accounted for where the print or the write has left the console.

    Ends P first R E → (∀ a, Ends (R a) (next a) Q E) → Ends P (first >>= next) Q E

What has been shown beside the results is never looked at again. It stays in front, and all that comes is
what would have come without it (`Blind`).
-/

namespace AutomatonGrammar

/-- What may hold of the text that has been printed, and of the folder. -/
abbrev Assertion := String → Folder → Prop

section Rules

variable {ε ε' α β : Type} {P P' E E' : Assertion}

/-! ## Actions -/

/-- An action that begins where `P` holds ends where `Q` holds of its result. -/
def After (P : Assertion) (action : StateM Console α) (Q : α → Assertion) : Prop :=
  ∀ c : Console, P c.stdout c.folder →
    Q (action.run c).1 (action.run c).2.stdout (action.run c).2.folder

namespace After

theorem pure {Q : α → Assertion} {a : α} (h : ∀ t g, P t g → Q a t g) :
    After P (pure a : StateM Console α) Q :=
  fun _ hc => h _ _ hc

theorem bind {action : StateM Console α} {next : α → StateM Console β} {R : α → Assertion}
    {Q : β → Assertion} (h : After P action R) (hnext : ∀ a, After (R a) (next a) Q) :
    After P (action >>= next) Q :=
  fun c hc => hnext _ _ (h c hc)

theorem mono {action : StateM Console α} {Q Q' : α → Assertion} (h : After P action Q)
    (hP : ∀ t g, P' t g → P t g) (hQ : ∀ a t g, Q a t g → Q' a t g) : After P' action Q' :=
  fun c hc => hQ _ _ _ (h c (hP _ _ hc))

theorem forM {action : β → StateM Console Unit} (h : ∀ x, After P (action x) fun _ => P) (xs : List β) :
    After P (xs.forM action) fun _ => P := by
  induction xs with
  | nil => exact .pure fun _ _ ht => ht
  | cons x xs ih => exact (h x).bind fun _ => ih

end After

/-! ## Steps that may fail -/

/-- What has to hold at the end of steps that may fail. -/
def AtEnd (Q : α → Assertion) (E : Assertion) : Except ε α → Assertion
  | .ok a => Q a
  | .error _ => E

/-- Steps that begin where `P` holds end where `Q` holds of their result, or fail where `E` holds. -/
def Ends (P : Assertion) (steps : ExceptT ε (StateM Console) α) (Q : α → Assertion)
    (E : Assertion) : Prop :=
  After P steps.run (AtEnd Q E)

namespace Ends

variable {Q Q' : α → Assertion}

theorem pure {a : α} (h : ∀ t g, P t g → Q a t g) :
    Ends P (pure a : ExceptT ε (StateM Console) α) Q E :=
  After.pure h

/-- The rule for sequences: what the first steps leave is what the next ones find, and a failure of either
is a failure of both. -/
theorem bind {steps : ExceptT ε (StateM Console) α} {next : α → ExceptT ε (StateM Console) β}
    {R : α → Assertion} {Q : β → Assertion} (h : Ends P steps R E)
    (hnext : ∀ a, Ends (R a) (next a) Q E) : Ends P (steps >>= next) Q E := by
  rw [Ends, ExceptT.run_bind]
  refine After.bind h fun r => ?_
  cases r with
  | ok a => exact hnext a
  | error e => exact .pure fun _ _ he => he

theorem mono {steps : ExceptT ε (StateM Console) α} (h : Ends P steps Q E)
    (hP : ∀ t g, P' t g → P t g) (hQ : ∀ a t g, Q a t g → Q' a t g) (hE : ∀ t g, E t g → E' t g) :
    Ends P' steps Q' E' := by
  refine After.mono h hP fun r => ?_
  cases r with
  | ok a => exact hQ a
  | error e => exact hE

/-- An action does not fail. -/
theorem lift {action : StateM Console α} (h : After P action Q) :
    Ends P (liftM action : ExceptT ε (StateM Console) α) Q E :=
  h.bind fun _ => .pure fun _ _ ha => ha

/-- A result that is there already touches nothing. -/
theorem ofExcept (r : Except ε α) :
    Ends P (liftM r : ExceptT ε (StateM Console) α) (fun a t g => P t g ∧ r = .ok a)
      (fun t g => P t g ∧ ∀ a, r ≠ .ok a) := by
  intro c hc
  cases r with
  | ok a => exact ⟨hc, rfl⟩
  | error e => exact ⟨hc, by simp⟩

/-- Under which stage a failure is reported makes no difference. -/
theorem adapt {steps : ExceptT ε (StateM Console) α} (h : Ends P steps Q E) (f : ε → ε') :
    Ends P (steps.adapt f) Q E := by
  intro c hc
  have h := h c hc
  show AtEnd Q E ((steps.run.run c).1.mapError f) (steps.run.run c).2.stdout (steps.run.run c).2.folder
  cases hr : (steps.run.run c).1 with
  | ok a =>
    rw [hr] at h
    exact h
  | error e =>
    rw [hr] at h
    exact h

/-- What holds beside the console may be assumed. -/
theorem assume {steps : ExceptT ε (StateM Console) α} {p : Prop} (h : p → Ends P steps Q E) :
    Ends (fun t g => P t g ∧ p) steps Q E :=
  fun c hc => h hc.2 c hc.1

end Ends

theorem run_bind_of_eq_ok {steps : ExceptT ε (StateM Console) α}
    {next : α → ExceptT ε (StateM Console) β} {a : α} {c c' : Console} (h : steps.run.run c = (.ok a, c')) :
    (steps >>= next).run.run c = (next a).run.run c' := by
  rw [ExceptT.run_bind, StateT.run_bind, h]
  rfl

/-! ## What has been shown -/

/-- The console with a text in front of what has been shown. -/
def Console.behind (c : Console) (text : String) : Console := { c with stderr := text ++ c.stderr }

/-- The action does not look at what has been shown, and shows what it has to show behind it. -/
def Blind (action : StateM Console α) : Prop :=
  ∀ (c : Console) (text : String),
    action.run (c.behind text) = ((action.run c).1, (action.run c).2.behind text)

namespace Blind

theorem pure (a : α) : Blind (pure a : StateM Console α) := fun _ _ => rfl

theorem bind {action : StateM Console α} {next : α → StateM Console β} (h : Blind action)
    (hnext : ∀ a, Blind (next a)) : Blind (action >>= next) := by
  intro c text
  show (next (action.run (c.behind text)).1).run (action.run (c.behind text)).2 = _
  rw [h c text]
  exact hnext _ _ text

theorem forM {action : β → StateM Console Unit} (h : ∀ x, Blind (action x)) (xs : List β) :
    Blind (xs.forM action) := by
  induction xs with
  | nil => exact .pure _
  | cons x xs ih => exact (h x).bind fun _ => ih

/-- The rule for sequences of steps that may fail. -/
theorem bind_run {steps : ExceptT ε (StateM Console) α} {next : α → ExceptT ε (StateM Console) β}
    (h : Blind steps.run) (hnext : ∀ a, Blind (next a).run) : Blind (steps >>= next).run := by
  rw [ExceptT.run_bind]
  refine h.bind fun r => ?_
  cases r with
  | ok a => exact hnext a
  | error e => exact .pure _

theorem lift_run {action : StateM Console α} (h : Blind action) :
    Blind (liftM action : ExceptT ε (StateM Console) α).run :=
  h.bind fun _ => .pure _

theorem adapt_run {steps : ExceptT ε (StateM Console) α} (h : Blind steps.run) (f : ε → ε') :
    Blind (steps.adapt f).run :=
  h.bind fun _ => .pure _

end Blind

end Rules

/-! ## The steps of a run -/

/-- The printed text and the folder are these. -/
def At (s : String) (f : Folder) : Assertion := fun t g => t = s ∧ g = f

/-- The file at a path holds a record of the automaton. -/
def Folder.Holds (f : Folder) (path : String) (a : Automaton) : Prop :=
  ∃ text, f.read path = .ok text ∧ Record.read text = .ok a

namespace Diagram

/-- The answer of a renderer that is started in a folder to draw an output, if there is one. -/
def answer? (renderer : Option Renderer) (f : Folder) (o : Output) (format : String) : Option Answer :=
  renderer.map fun run => run (job o format) f

theorem Reply.result_eq_ok_iff {reply : Reply} (path : String) :
    reply.result path = .ok () ↔ reply.status = .exited (.code 0) := by
  unfold result
  split
  · next h => exact iff_of_true rfl h
  · next hne h => exact iff_of_false (by simp) fun h0 => hne (Ending.exited.inj (h.symm.trans h0))
  · next h => exact iff_of_false (by simp) (by simp [h])

end Diagram

theorem mapError_eq_ok_iff {ε ε' α : Type} {r : Except ε α} {h : ε → ε'} {a : α} :
    r.mapError h = .ok a ↔ r = .ok a := by
  cases r with
  | error e =>
    show Except.error (h e) = .ok a ↔ Except.error e = .ok a
    simp
  | ok b =>
    show Except.ok b = .ok a ↔ Except.ok b = .ok a
    simp

theorem Record.ofContents_eq_ok_iff {path : String} {contents : Except FileFault String} {a : Automaton} :
    ofContents path contents = .ok a ↔ ∃ text, contents = .ok text ∧ Record.read text = .ok a := by
  cases contents with
  | error fault => simp [ofContents]
  | ok text => simp [ofContents, mapError_eq_ok_iff]

theorem Folder.holds_iff {f : Folder} {path : String} {a : Automaton} :
    f.Holds path a ↔ Record.ofContents path (f.read path) = .ok a :=
  Record.ofContents_eq_ok_iff.symm

namespace Surroundings

variable {filter : Log.Filter} {renderer : Option Diagram.Renderer} {P : Assertion} {s : String}
  {f : Folder}

/-- To log an entry is neither to print nor to change the folder. -/
theorem after_log (e : Log.Entry) : After P ((console filter renderer).log e) fun _ => P :=
  fun _ hc => hc

theorem after_logAll (es : List Log.Entry) : After P ((console filter renderer).logAll es) fun _ => P :=
  After.forM after_log es

/-- A print goes behind what has been printed. -/
theorem after_print (text : String) :
    After (At s f) ((console filter renderer).print text) fun _ => At (s ++ text) f :=
  fun _ hc => ⟨congrArg (· ++ text) hc.1, hc.2⟩

theorem after_printLines (lines : List String) :
    After (At s f) ((console filter renderer).printLines lines) fun _ =>
      At (s ++ String.join (lines.map (· ++ "\n"))) f := by
  induction lines generalizing s with
  | nil => exact .pure fun t g ht => ⟨ht.1.trans (String.append_empty).symm, ht.2⟩
  | cons line lines ih =>
    refine (after_print (line ++ "\n")).bind fun _ => ih.mono (fun _ _ ht => ht) fun _ t g ht => ?_
    rwa [List.map_cons, String.join_cons, ← String.append_assoc]

/-- To read a file changes nothing. -/
theorem after_read (path : String) : After (At s f) ((console filter renderer).read path)
    fun r t g => At s f t g ∧ r = f.read path :=
  fun _ hc => ⟨hc, congrArg (Folder.read · path) hc.2⟩

theorem blind_log (e : Log.Entry) : Blind ((console filter renderer).log e) := by
  intro c text
  show ((), ({ c with stderr := text ++ c.stderr ++ filter.terminalText e } : Console)) =
    ((), { c with stderr := text ++ (c.stderr ++ filter.terminalText e) })
  rw [String.append_assoc]

theorem ends_loadRecord (path : String) : Ends (At s f) ((console filter renderer).loadRecord path)
    (fun a t g => At s f t g ∧ f.Holds path a) (fun t g => At s f t g ∧ ∀ a, ¬ f.Holds path a) := by
  simp only [Folder.holds_iff]
  refine (Ends.lift (after_read path)).bind fun contents => Ends.assume ?_
  rintro rfl
  refine (Ends.ofExcept _).bind fun a => Ends.assume fun ha => ?_
  exact (Ends.lift (after_log _)).bind fun _ => .pure fun t g ht => ⟨ht, ha⟩

/-- A write either puts the whole text into the folder or leaves the folder as it is. -/
theorem after_write (path text : String) : After (At s f) ((console filter renderer).write path text)
    (AtEnd (fun _ t g => t = s ∧ f.write path text = .ok g)
      (fun t g => At s f t g ∧ ∀ g', f.write path text ≠ .ok g')) := by
  rintro c ⟨rfl, rfl⟩
  show AtEnd _ _ (Console.write path text c).1 (Console.write path text c).2.stdout
    (Console.write path text c).2.folder
  rw [Console.write]
  cases c.folder.write path text with
  | error fault => exact ⟨⟨rfl, rfl⟩, by simp⟩
  | ok g => exact ⟨rfl, rfl⟩

/-- The renderer does to the folder what it answers, and prints nothing. -/
theorem after_render (job : Diagram.Job) : After (At s f) ((console filter renderer).render job)
    (AtEnd (fun reply t g => t = s ∧ ∃ run, renderer = some run ∧ reply = (run job f).reply ∧
        g = (run job f).folder)
      (fun t g => At s f t g ∧ renderer = none)) := by
  rintro c ⟨rfl, rfl⟩
  cases renderer with
  | none => exact ⟨⟨rfl, rfl⟩, rfl⟩
  | some run => exact ⟨rfl, run, rfl, rfl, rfl⟩

/-- A text is written, or the folder is left as it is and there is no way to write it. -/
theorem ends_put (o : Output) : Ends (At s f) ((console filter renderer).put o)
    (fun _ t g => t = s ∧ f.write o.path o.text = .ok g)
    (fun t g => At s f t g ∧ ∀ g', f.write o.path o.text ≠ .ok g') := by
  refine (Ends.lift (after_write o.path o.text)).bind fun written => ?_
  cases written with
  | error fault => exact fun c hc => hc
  | ok _ => exact .pure fun _ _ ht => ht

theorem ends_renderFile (o : Output) (format : String) :
    Ends (At s f) ((console filter renderer).renderFile o format)
    (fun _ t g => t = s ∧ ∃ answer, Diagram.answer? renderer f o format = some answer ∧
      answer.status = .exited (.code 0) ∧ g = answer.folder)
    (fun t g => t = s ∧
      (g = f ∨ ∃ answer, Diagram.answer? renderer f o format = some answer ∧ g = answer.folder) ∧
      ∀ answer, Diagram.answer? renderer f o format = some answer →
        answer.status ≠ .exited (.code 0)) := by
  refine (Ends.lift (after_render (Diagram.job o format))).bind fun rendered => ?_
  cases rendered with
  | error fault =>
    rintro c ⟨⟨ht, hg⟩, rfl⟩
    refine ⟨ht, .inl hg, fun answer hanswer => ?_⟩
    cases hanswer
  | ok reply =>
    show Ends _ (liftM (reply.result o.path) : ExceptT Error (StateM Console) Unit) _ _
    refine (Ends.ofExcept _).mono (fun _ _ ht => ht) ?_ ?_
    · rintro _ t g ⟨⟨ht, run, rfl, rfl, hg⟩, hresult⟩
      exact ⟨ht, _, rfl, (Diagram.Reply.result_eq_ok_iff _).1 hresult, hg⟩
    · rintro t g ⟨⟨ht, run, rfl, rfl, hg⟩, hresult⟩
      refine ⟨ht, .inr ⟨_, rfl, hg⟩, ?_⟩
      rintro answer hanswer hstatus
      cases hanswer
      exact hresult () ((Diagram.Reply.result_eq_ok_iff _).2 hstatus)

end Surroundings

end AutomatonGrammar
