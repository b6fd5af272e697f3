import EviAssist.Proofs.Background

/-!
# Whole operations

The steps of the background are single critical sections. When one thing happens after another,
all sections of an operation take place before those of the next one.

* `Background.Operation`, `Background.stepsOf`: what is done as a whole, and its sections.
* `Background.perform`, `Background.announces`: an operation, and what is announced in it.
* `Background.after`, `Background.announcedAfter`: the background after a history of operations,
  the newest first.
* `Background.run_editSteps_of_accepted`, `Background.perform_close`,
  `Background.perform_reload`, `Background.perform_fire_of_some`, `Background.perform_conclude`:
  what each operation does.
-/

namespace EviAssist.Background

/-! ## Operations -/

/-- What is done as a whole. -/
inductive Operation where
  /-- A document is open with a new text. -/
  | edit (document : Document)
  /-- A document is closed. -/
  | close (path : Path)
  /-- Evi is asked with other settings. -/
  | reconfigure (tools : ToolSettings)
  /-- New settings apply, and all open documents are checked again. -/
  | reload (validation : ValidationSettings) (tools : ToolSettings)
  /-- The moment of a scheduled check comes. -/
  | fire (job : Job)
  /-- A check ends with an answer. -/
  | conclude (check : Check) (answer : Except LintError LintResult)

/-- A text that is accepted for a check is scheduled at once. -/
def editSteps (b : Background) (document : Document) : List Step :=
  .accept document ::
    if (b.validator.accept document).2 then
      [.draw document, .install ⟨b.debouncer.draw.1, document⟩ true]
    else []

/-- Several texts, one after another. -/
def editAllSteps (b : Background) : List Document → List Step
  | [] => []
  | document :: documents =>
    b.editSteps document ++ (b.run (b.editSteps document)).editAllSteps documents

/-- New settings apply, to the questions first. -/
def applySteps (b : Background) (validation : ValidationSettings) (tools : ToolSettings) :
    List Step :=
  let change : Change := ⟨validation, tools, !b.tools.sameExecutable tools⟩
  [.compare validation tools, .configure change, .reload change]

/-- The sections of an operation. A check that does not wait cannot start, and one that is not in
flight cannot end. -/
def stepsOf (b : Background) : Operation → List Step
  | .edit document => b.editSteps document
  | .close path => [.cancel path true, .close path]
  | .reconfigure tools => [.reconfigure tools]
  | .reload validation tools =>
    let applied := b.run (b.applySteps validation tools)
    b.applySteps validation tools ++ applied.editAllSteps applied.validator.documents.values
  | .fire job =>
    if job ∈ b.waiting then .wake job :: if b.isDue job then [.ask job] else [] else []
  | .conclude check answer =>
    if check ∈ b.running then [.conclude check answer, .finish check.job] else []

/-- An operation. -/
def perform (b : Background) (operation : Operation) : Background :=
  b.run (b.stepsOf operation)

/-- What is announced in an operation. -/
def announces (b : Background) (operation : Operation) : List ValidationEvent :=
  b.announced (b.stepsOf operation)

/-- The background after a history of operations, the newest first. -/
def after (b : Background) : List Operation → Background
  | [] => b
  | operation :: earlier => (b.after earlier).perform operation

/-- What is announced in a history of operations. -/
def announcedAfter (b : Background) : List Operation → List ValidationEvent
  | [] => []
  | operation :: earlier => b.announcedAfter earlier ++ (b.after earlier).announces operation

theorem after_append (b : Background) (later earlier : List Operation) :
    b.after (later ++ earlier) = (b.after earlier).after later := by
  induction later with
  | nil => rfl
  | cons operation later ih => rw [List.cons_append, after, after, ih]

theorem announcedAfter_append (b : Background) (later earlier : List Operation) :
    b.announcedAfter (later ++ earlier) =
      b.announcedAfter earlier ++ (b.after earlier).announcedAfter later := by
  induction later with
  | nil => exact (List.append_nil _).symm
  | cons operation later ih =>
    rw [List.cons_append, announcedAfter, announcedAfter, ih, after_append, List.append_assoc]

theorem exists_run_eq_after (b : Background) (history : List Operation) :
    ∃ steps, b.run steps = b.after history ∧ b.announced steps = b.announcedAfter history := by
  induction history with
  | nil => exact ⟨[], rfl, rfl⟩
  | cons operation earlier ih =>
    obtain ⟨steps, hr, ha⟩ := ih
    refine ⟨steps ++ (b.after earlier).stepsOf operation, ?_, ?_⟩
    · rw [run_append, hr]
      rfl
    · rw [announced_append, hr, ha]
      rfl

theorem isReachable_after (directory : Option Path) (tools : ToolSettings)
    (settings : ValidationSettings) (history : List Operation) :
    ((start directory tools settings).after history).IsReachable := by
  obtain ⟨steps, hr, -⟩ := (start directory tools settings).exists_run_eq_after history
  exact ⟨directory, tools, settings, steps, hr.symm⟩

/-! ## What they do -/

variable {b : Background} {document : Document}

theorem step_accept (b : Background) (document : Document) :
    (b.step (.accept document)).1 =
      { b with
        validator := (b.validator.accept document).1
        accepted :=
          if (b.validator.accept document).2 then document ::ₘ b.accepted else b.accepted } := by
  rw [step_of_section?_eq_some rfl]
  simp only [move]
  split <;> rfl

theorem run_editSteps_of_not_accepted (ha : ¬(b.validator.accept document).2 = true) :
    b.run (b.editSteps document) = { b with validator := (b.validator.accept document).1 } := by
  rw [editSteps, if_neg ha, run, run, step_accept, if_neg ha]

/-- A text that is accepted is scheduled at once, in place of the one that waited. -/
theorem run_editSteps_of_accepted (ha : (b.validator.accept document).2 = true) :
    b.run (b.editSteps document) =
      { b with
        validator := (b.validator.accept document).1
        debouncer := (b.debouncer.draw.2.install document.path b.debouncer.draw.1).1
        waiting := ⟨b.debouncer.draw.1, document⟩ ::ₘ
          stop true b.waiting
            (b.debouncer.draw.2.install document.path b.debouncer.draw.1).2 } := by
  have hd : (b.run [.accept document, .draw document]) =
      { b with
        validator := (b.validator.accept document).1
        debouncer := b.debouncer.draw.2
        drawn := ⟨b.debouncer.draw.1, document⟩ ::ₘ b.drawn } := by
    rw [run, step_accept, if_pos ha, run, run, step_of_section?_eq_none rfl]
    simp only [move, Multiset.mem_cons_self, if_true, Multiset.erase_cons_head]
  rw [editSteps, if_pos ha]
  refine (run_append b [.accept document, .draw document] _).trans ?_
  rw [hd, run, run, step_of_section?_eq_none rfl]
  simp only [move, Multiset.mem_cons_self, if_true, Multiset.erase_cons_head]

theorem announced_editSteps (b : Background) (document : Document) :
    b.announced (b.editSteps document) = [] := by
  unfold editSteps
  split <;> rfl

theorem announced_editAllSteps (b : Background) (documents : List Document) :
    b.announced (b.editAllSteps documents) = [] := by
  induction documents generalizing b with
  | nil => rfl
  | cons document documents ih => rw [editAllSteps, announced_append, announced_editSteps, ih]; rfl

theorem perform_close (b : Background) (path : Path) :
    b.perform (.close path) =
        { b with
          validator := (b.validator.close path).1
          debouncer := (b.debouncer.cancel path).1
          waiting := stop true b.waiting (b.debouncer.cancel path).2 } ∧
      b.announces (.close path) = (b.validator.close path).2 :=
  ⟨rfl, List.append_nil _⟩

theorem run_applySteps (b : Background) (validation : ValidationSettings) (tools : ToolSettings) :
    let reloaded := b.validator.reload validation !b.tools.sameExecutable tools
    b.run (b.applySteps validation tools) = { b with tools, validator := reloaded.1 } ∧
      b.announced (b.applySteps validation tools) = reloaded.2 := by
  let change : Change := ⟨validation, tools, !b.tools.sameExecutable tools⟩
  have hr : b.run [.compare validation tools, .configure change] =
      { b with tools, configured := change ::ₘ b.configured } := by
    rw [run, run, run, step_of_section?_eq_none rfl, step_of_section?_eq_none rfl]
    simp only [move, change, Multiset.mem_cons_self, if_true, Multiset.erase_cons_head]
  have hs : { b with tools, configured := change ::ₘ b.configured }.section? (.reload change) =
      some (.reload validation change.executableChanged) :=
    if_pos (Multiset.mem_cons_self _ _)
  refine ⟨?_, ?_⟩
  · refine (run_append b [.compare _ _, .configure change] [.reload change]).trans ?_
    rw [hr, run, run, step_of_section?_eq_some hs]
    simp only [move, Multiset.erase_cons_head]
    rfl
  · refine (announced_append b [.compare _ _, .configure change] [.reload change]).trans ?_
    rw [hr]
    simp only [announced, step_of_section?_eq_some hs, List.append_nil]
    rfl

theorem perform_reload (b : Background) (validation : ValidationSettings) (tools : ToolSettings) :
    let reloaded := b.validator.reload validation !b.tools.sameExecutable tools
    let applied : Background := { b with tools, validator := reloaded.1 }
    b.perform (.reload validation tools) =
        applied.run (applied.editAllSteps b.validator.documents.values) ∧
      b.announces (.reload validation tools) = reloaded.2 := by
  obtain ⟨hr, ha⟩ := b.run_applySteps validation tools
  refine ⟨?_, ?_⟩
  · rw [perform, stepsOf, run_append, hr]
    rfl
  · rw [announces, stepsOf, announced_append, announced_editAllSteps, ha, List.append_nil]

theorem perform_fire_of_notMem {job : Job} (hm : job ∉ b.waiting) : b.perform (.fire job) = b := by
  rw [perform, stepsOf, if_neg hm, run]

theorem perform_fire_of_none {job : Job} {rest : Multiset Job} (hw : b.waiting = job ::ₘ rest)
    (hn : b.debouncer.wake? job.document.path job.generation = none) :
    b.perform (.fire job) = { b with waiting := rest } := by
  have hm : job ∈ b.waiting := hw ▸ Multiset.mem_cons_self _ _
  have hd : ¬b.isDue job = true := by
    rw [isDue, hn]
    exact Bool.false_ne_true
  rw [perform, stepsOf, if_pos hm, if_neg hd, run, run, step_of_section?_eq_none rfl]
  simp only [move, hn, hw, Multiset.mem_cons_self, if_true, Multiset.erase_cons_head]

theorem perform_fire_of_some {job : Job} {rest : Multiset Job} {debouncer : Debouncer}
    (hw : b.waiting = job ::ₘ rest)
    (hn : b.debouncer.wake? job.document.path job.generation = some debouncer) :
    b.perform (.fire job) =
      { b with
        debouncer
        waiting := rest
        running := ⟨job, b.tools.executable⟩ ::ₘ b.running } := by
  have hm : job ∈ b.waiting := hw ▸ Multiset.mem_cons_self _ _
  have hd : b.isDue job = true := by
    rw [isDue, hn]
    rfl
  have hs : (b.step (.wake job)).1 =
      { b with debouncer, waiting := rest, begun := job ::ₘ b.begun } := by
    rw [step_of_section?_eq_none rfl]
    simp only [move, hn, hw, Multiset.mem_cons_self, if_true, Multiset.erase_cons_head]
  rw [perform, stepsOf, if_pos hm, if_pos hd, run, hs, run, run, step_of_section?_eq_none rfl]
  simp only [move, Multiset.mem_cons_self, if_true, Multiset.erase_cons_head]

theorem announces_fire (b : Background) (job : Job) : b.announces (.fire job) = [] := by
  rw [announces, stepsOf]
  split
  · split <;> rfl
  · rfl

theorem perform_conclude_of_notMem {check : Check} (hm : check ∉ b.running)
    (answer : Except LintError LintResult) : b.perform (.conclude check answer) = b := by
  rw [perform, stepsOf, if_neg hm, run]

theorem perform_conclude {check : Check} {rest : Multiset Check}
    (hr : b.running = check ::ₘ rest) (answer : Except LintError LintResult) :
    let ending := b.validator.conclude check.job.document.path
      (Feature.reportOf b.directory check.job.document answer)
    b.perform (.conclude check answer) =
        { b with
          validator := ending.1
          debouncer := b.debouncer.finish check.job.document.path check.job.generation
          running := rest } ∧
      b.announces (.conclude check answer) = ending.2 := by
  have hm : check ∈ b.running := hr ▸ Multiset.mem_cons_self _ _
  have hs : b.section? (.conclude check answer) =
      some (.conclude check.job.document answer) := if_pos hm
  have hc : b.step (.conclude check answer) =
      ({ b with
        validator := (b.validator.conclude check.job.document.path
          (Feature.reportOf b.directory check.job.document answer)).1
        running := rest
        ended := check.job ::ₘ b.ended },
      (b.validator.conclude check.job.document.path
        (Feature.reportOf b.directory check.job.document answer)).2) := by
    have hv : b.move (.conclude check answer) =
        { b with running := b.running.erase check, ended := check.job ::ₘ b.ended } := if_pos hm
    rw [step_of_section?_eq_some hs, hv, hr, Multiset.erase_cons_head]
    rfl
  refine ⟨?_, ?_⟩
  · rw [perform, stepsOf, if_pos hm, run, hc, run, run, step_of_section?_eq_none rfl]
    simp only [move, Multiset.mem_cons_self, if_true, Multiset.erase_cons_head]
  · rw [announces, stepsOf, if_pos hm, announced, announced, announced, hc]
    exact List.append_nil _

end EviAssist.Background
