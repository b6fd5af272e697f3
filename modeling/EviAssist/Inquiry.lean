import EviAssist.Lint.Error
import EviAssist.Lint.Result

/-!
# Inquiries

A feature asks evi some questions about a document, one after another, and then has its answer.
How and when evi answers is left open: a script, a running program and a proof each put the
answers in.

* `Inquiry`: questions and what follows from their answers.
* `Inquiry.run`, `Inquiry.query`: one question, with or without the reason why there is no
  answer.
* `Inquiry.answerWith`, `Inquiry.answerIn`: the outcome under given answers, and while answers are
  sought.
-/

namespace EviAssist

/-- Questions about a document, and an outcome. -/
inductive Inquiry (α : Type) where
  | done (outcome : α)
  | ask (kind : LintKind) (cursor : Option Position)
      (next : Except LintError LintResult → Inquiry α)

namespace Inquiry

variable {α β : Type}

/-- The questions of one inquiry, then those that follow from its outcome. -/
def bind : Inquiry α → (α → Inquiry β) → Inquiry β
  | done a, f => f a
  | ask kind cursor next, f => ask kind cursor fun answer => (next answer).bind f

instance : Monad Inquiry where
  pure := done
  bind := bind

/-- One question, with the reason why there is no answer. -/
def run (kind : LintKind) (cursor : Option Position) : Inquiry (Except LintError LintResult) :=
  ask kind cursor done

/-- One question; no answer for any reason. -/
def query (kind : LintKind) (cursor : Option Position) : Inquiry (Option LintResult) :=
  ask kind cursor fun answer => done answer.toOption

/-- The outcome when every question is answered by `answer`. -/
def answerWith (answer : LintKind → Option Position → Except LintError LintResult) :
    Inquiry α → α
  | done a => a
  | ask kind cursor next => (next (answer kind cursor)).answerWith answer

/-- The outcome when each question in turn is put to `answer`. -/
def answerIn {m : Type → Type} [Monad m] {α : Type}
    (answer : LintKind → Option Position → m (Except LintError LintResult)) : Inquiry α → m α
  | done a => return a
  | ask kind cursor next => do (next (← answer kind cursor)).answerIn answer

end Inquiry

end EviAssist
