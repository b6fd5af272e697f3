import EviAssist.Proofs.Bridge
import EviAssist.Proofs.Lint.Remap

/-!
# What calls return

A call that returns an answer has it from its own run of evi: evi has ended with an output, and the
snapshot that it was asked about has been removed, right before. So the answer is the one in that
output, moved from that snapshot to the document of the call, whatever other calls do meanwhile.

* `Bridge.returned_step`: the only step that returns an answer.
* `Bridge.exists_leave_of_returned`: where an answer comes from.
* `Bridge.leaks_no_snapshot`: no answer points into a snapshot.
-/

namespace EviAssist.Bridge

variable {b : Bridge} {n m : Nat} {call : Call} {stage : Stage} {result : LintResult}

/-! ## Returning -/

/-- A call that has returned an answer had done so before, or it is the one that comes to a
stage. -/
theorem returned_put (hc : (b.put m stage).calls[n]? = some call)
    (hs : call.stage = .returned (.ok result)) :
    b.calls[n]? = some call ∨
      m = n ∧ stage = .returned (.ok result) ∧
        ∃ old, b.calls[n]? = some old ∧ { old with stage } = call := by
  rw [getElem?_put] at hc
  split at hc
  · obtain ⟨old, ho, rfl⟩ := Option.map_eq_some_iff.1 hc
    exact .inr ⟨‹_›, hs, old, ho, rfl⟩
  · exact .inl hc

theorem calls_of_put_put {other : Nat}
    (hc : ((b.put m stage).put other .inside).calls[n]? = some call)
    (hs : call.stage = .returned (.ok result)) : (b.put m stage).calls[n]? = some call := by
  obtain h | ⟨-, h, -⟩ := returned_put hc hs
  · exact h
  · cases h

theorem returned_depart {answer : Except LintError LintResult}
    (hc : (b.depart m answer).calls[n]? = some call) (hs : call.stage = .returned (.ok result)) :
    b.calls[n]? = some call ∨
      m = n ∧ answer = .ok result ∧
        ∃ old, b.calls[n]? = some old ∧ { old with stage := .returned answer } = call := by
  have hput : ∀ gate, ({ b with gate }.put m (.returned answer)).calls[n]? = some call →
      b.calls[n]? = some call ∨
        m = n ∧ answer = .ok result ∧
          ∃ old, b.calls[n]? = some old ∧ { old with stage := .returned answer } = call := by
    intro gate h
    obtain h | ⟨heq, hanswer, h⟩ := returned_put h hs
    · exact .inl h
    · exact .inr ⟨heq, Stage.returned.inj hanswer, h⟩
  cases hw : b.gate.waiting with
  | nil =>
    rw [depart_of_nil hw] at hc
    exact hput _ hc
  | cons first rest =>
    rw [depart_of_cons hw] at hc
    exact hput _ (calls_of_put_put hc hs)

/-- **The only step that returns an answer**: a call whose snapshot has been removed leaves. -/
theorem returned_step {x : Step} (hc : (b.step x).calls[n]? = some call)
    (hs : call.stage = .returned (.ok result)) :
    b.calls[n]? = some call ∨
      x = .move n .leave ∧ ∃ snapshot outcome,
        b.calls[n]? = some { call with stage := .removed snapshot outcome } ∧
          call.answer snapshot outcome = .ok result := by
  cases x with
  | call document kind cursor =>
    rw [step, getElem?_concat] at hc
    split at hc
    · cases hc
      dsimp only at hs
      split at hs <;> cases hs
    · exact .inl hc
  | reconfigure settings => exact .inl hc
  | move m move =>
    rw [step] at hc
    split at hc
    · rename_i moved hm
      obtain h | ⟨files, gate, stage, hne, h⟩ | ⟨e, h⟩ | ⟨snapshot, outcome, rfl, hstage, h⟩ :=
        act_cases b m moved move
      · exact .inl (h ▸ hc)
      · rw [h] at hc
        obtain hc | ⟨-, heq, -⟩ := returned_put hc hs
        · exact .inl hc
        · exact absurd heq (hne result)
      · rw [h] at hc
        obtain hc | ⟨-, heq, -⟩ := returned_depart hc hs
        · exact .inl hc
        · cases heq
      · rw [h] at hc
        obtain hc | ⟨rfl, hanswer, old, ho, rfl⟩ := returned_depart hc hs
        · exact .inl hc
        · cases hm.symm.trans ho
          refine .inr ⟨rfl, snapshot, outcome, ?_, hanswer⟩
          rw [ho, ← hstage]
    · exact .inl hc

/-- **Where an answer comes from.** -/
theorem exists_leave_of_returned {steps : List Step} (hfresh : b.calls = [])
    (hc : (b.run steps).calls[n]? = some call) (hs : call.stage = .returned (.ok result)) :
    ∃ before after snapshot outcome, steps = before ++ .move n .leave :: after ∧
      (b.run before).calls[n]? = some { call with stage := .removed snapshot outcome } ∧
        call.answer snapshot outcome = .ok result := by
  induction steps using List.reverseRecOn with
  | nil =>
    rw [run, hfresh] at hc
    cases hc
  | append_singleton steps x ih =>
    rw [run_append] at hc
    obtain h | ⟨rfl, snapshot, outcome, hremoved, hanswer⟩ := returned_step hc hs
    · obtain ⟨before, after, snapshot, outcome, rfl, hremoved, hanswer⟩ := ih h
      exact ⟨before, after ++ [x], snapshot, outcome, by simp, hremoved, hanswer⟩
    · exact ⟨steps, [], snapshot, outcome, rfl, hremoved, hanswer⟩

theorem answer_eq_ok_iff {snapshot : Path} {outcome : Except LintError String} :
    call.answer snapshot outcome = .ok result ↔
      ∃ stdout, outcome = .ok stdout ∧
        Lint.Answers call.kind snapshot call.document.path stdout result := by
  simp only [← Lint.answerOf_eq_ok_iff]
  cases outcome with
  | error e => exact ⟨nofun, nofun⟩
  | ok stdout => exact ⟨fun h => ⟨stdout, rfl, h⟩, fun ⟨_, hout, h⟩ => by cases hout; exact h⟩

/-! ## Answers -/

/-- **No answer points into a snapshot.** Whatever evi writes about a snapshot, the answer in it
exists when the text can be decoded, and it is what is decoded, with the document as the file of
those places, in declarations, diagnostics and notes, that are in the snapshot; all else is the
same. Unless the two paths are spellings of one, no place in the answer is in the snapshot. The
answer that a call returns, in any run of any number of calls, is the one in what evi wrote about
the snapshot of this call. Moving an answer a second time changes nothing. -/
theorem leaks_no_snapshot :
    (∀ kind snapshot document stdout,
      (∀ e, Lint.decode kind (Colour.stripText stdout) = .error e →
        Lint.answerOf kind snapshot document stdout = .error e) ∧
      ∀ decoded, Lint.decode kind (Colour.stripText stdout) = .ok decoded →
        ∃ result, Lint.answerOf kind snapshot document stdout = .ok result ∧
          decoded.IsMoved snapshot document result ∧
          (snapshot.same document = false →
            ∀ p ∈ result.positions, p.file.same snapshot = false)) ∧
    (∀ settings gateWait steps (n : Nat) call result,
      (run { settings, gateWait } steps).calls[n]? = some call →
        call.stage = .returned (.ok result) →
          ∃ before after snapshot stdout decoded, steps = before ++ .move n .leave :: after ∧
            (run { settings, gateWait } before).stage? n = some (.removed snapshot (.ok stdout)) ∧
            Lint.decode call.kind (Colour.stripText stdout) = .ok decoded ∧
            decoded.IsMoved snapshot call.document.path result ∧
            (snapshot.same call.document.path = false →
              ∀ p ∈ result.positions, p.file.same snapshot = false)) ∧
    ∀ (old new : Path) (result : LintResult),
      (result.remap old new).remap old new = result.remap old new := by
  refine ⟨fun kind snapshot document stdout => ⟨fun e => Lint.answerOf_eq_error_iff.2,
    fun decoded hd => ?_⟩, fun settings gateWait steps n call result hc hs => ?_,
    LintResult.remap_remap⟩
  · have hmoved : decoded.IsMoved snapshot document (decoded.remap snapshot document) :=
      LintResult.isMoved_iff.2 rfl
    have hanswers : Lint.Answers kind snapshot document stdout
        (decoded.remap snapshot document) :=
      ⟨⟨decoded, hd, hmoved⟩, fun hs _ => LintResult.not_same_of_mem_positions hs decoded⟩
    exact ⟨_, Lint.answerOf_eq_ok_iff.2 hanswers, hmoved, hanswers.clean⟩
  · obtain ⟨before, after, snapshot, outcome, hsteps, hremoved, hanswer⟩ :=
      exists_leave_of_returned rfl hc hs
    obtain ⟨stdout, rfl, ⟨decoded, hd, hmoved⟩, hclean⟩ := answer_eq_ok_iff.1 hanswer
    refine ⟨before, after, snapshot, stdout, decoded, hsteps, ?_, hd, hmoved, hclean⟩
    rw [stage?, hremoved]
    rfl

end EviAssist.Bridge
