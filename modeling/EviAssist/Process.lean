import EviAssist.Lint.Error
import EviAssist.Lint.Request
import EviAssist.Text.Blank
import EviAssist.Text.Utf8

/-!
# Processes

What becomes of a command that is run with a time limit.

* `ProcessRun`: what the system tells of a run.
* `ProcessRun.outcome`: the output of a run that ended well, or why there is none.
* `lastBoundary?`: where the whole characters among the first bytes of a text end.
* `excerpt`: the part of a long text that an error message shows.
-/

namespace EviAssist

/-- Why a program did not start: there is none of that name, or for another cause. -/
inductive StartFailure where
  | notFound
  | other (cause : String)
  deriving DecidableEq, Inhabited, Repr

/-- What the system tells of a run. A run that a signal ended has no status. -/
inductive ProcessRun where
  | refused (failure : StartFailure)
  | ended (time : Duration) (status : Option Nat) (stdout stderr : List UInt8)
  | endless
  deriving DecidableEq, Inhabited, Repr

/-- The output of a run. -/
structure ToolOutput where
  stdout : String
  stderr : String
  deriving DecidableEq, Inhabited, Repr

/-- The greatest number of bytes of an excerpt. -/
def excerptSize : Nat :=
  4096

/-- The last place between two characters of a text, or at one of its ends, that has at most so
many bytes before it. It is looked for by stepping back byte by byte; there is none when the start
of the text is stepped over. -/
def lastBoundary? (text : String) : Nat → Option text.Pos
  | 0 => if h : (⟨0⟩ : String.Pos.Raw).IsValid text then some ⟨⟨0⟩, h⟩ else none
  | index + 1 =>
    if h : (⟨index + 1⟩ : String.Pos.Raw).IsValid text then some ⟨⟨index + 1⟩, h⟩
    else lastBoundary? text index

/-- The search ends at the start of the text at the latest. -/
theorem exists_lastBoundary? (text : String) (index : Nat) :
    ∃ stop : text.Pos, lastBoundary? text index = some stop ∧ stop.offset.byteIdx ≤ index ∧
      ∀ place : text.Pos, place.offset.byteIdx ≤ index →
        place.offset.byteIdx ≤ stop.offset.byteIdx := by
  induction index with
  | zero =>
    have hstart : (⟨0⟩ : String.Pos.Raw).IsValid text := text.startPos.isValid
    exact ⟨_, dif_pos hstart, Nat.le_refl _, fun _ h => h⟩
  | succ index ih =>
    rw [lastBoundary?]
    split
    · exact ⟨_, rfl, Nat.le_refl _, fun _ h => h⟩
    · rename_i hinside
      obtain ⟨stop, hstop, hle, hlast⟩ := ih
      refine ⟨stop, hstop, Nat.le_succ_of_le hle, fun place h => ?_⟩
      -- The index lies inside a character, so no place is there.
      have hne : place.offset.byteIdx ≠ index + 1 := fun he => hinside (he ▸ place.isValid)
      exact hlast place (by omega)

/-- A text, or when it is too long the whole characters among its first bytes, with a remark. -/
def excerpt? (text : String) : Option String :=
  if excerptSize < text.utf8ByteSize then
    (lastBoundary? text excerptSize).map fun stop =>
      (text.sliceTo stop).copy ++ "... (truncated)"
  else some text

theorem isSome_excerpt? (text : String) : (excerpt? text).isSome := by
  obtain ⟨stop, hstop, -⟩ := exists_lastBoundary? text excerptSize
  rw [excerpt?, hstop]
  split <;> rfl

/-- The part of a text that an error message shows. -/
def excerpt (text : String) : String :=
  (excerpt? text).get (isSome_excerpt? text)

/-- Whether a command holds a zero character, which no system accepts. -/
def ToolCommand.hasZero (c : ToolCommand) : Bool :=
  (c.program.text :: c.arguments).any fun text => text.toList.contains '\x00'

/-- The text in some bytes; parts that are none show as U+FFFD. -/
def readable (bytes : List UInt8) : List Char :=
  Utf8.decodeLossy bytes

namespace ProcessRun

/-- The output of a run that ended within the limit and with status zero, or why there is
none. -/
def outcome (program : Path) (limit : Duration) : ProcessRun → Except LintError ToolOutput
  | refused .notFound => .error (.toolNotFound (some program))
  | refused (.other cause) => .error (.spawn program cause)
  | endless => .error (.timeout limit)
  | ended time status stdout stderr =>
    if limit.nanoseconds ≤ time.nanoseconds then .error (.timeout limit)
    else if status = some 0 then
      .ok ⟨String.ofList (readable stdout), String.ofList (readable stderr)⟩
    else
      let code : Int := (status.map Int.ofNat).getD (-1)
      .error (.nonZeroExit code (excerpt (String.ofList (Text.trim (readable stderr)))))

end ProcessRun

/-- The outcome of a command when the system runs commands by `run`. -/
def ToolCommand.outcome {m : Type → Type} [Monad m] (run : ToolCommand → m ProcessRun)
    (limit : Duration) (c : ToolCommand) : m (Except LintError ToolOutput) :=
  if c.hasZero then return .error (.spawn c.program "nul byte found in provided data")
  else return (← run c).outcome c.program limit

end EviAssist
