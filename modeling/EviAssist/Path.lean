import EviAssist.Text.Search

/-!
# Paths

A path keeps the text it was written with, and two paths are the same when they have the same
components: repeated and trailing separators and an inner `.` do not count, a leading `.` does,
and `..` is never resolved.

* `Path.components`, `Path.same`: what counts of a path.
* `Path.parent?`, `Path.fileName?`, `Path.join`: taking paths apart and putting them together.
* `PathMap`: values kept under paths; the first spelling of a key stays.
-/

namespace EviAssist

/-- A path of a file or directory, as written. -/
structure Path where
  text : String
  deriving DecidableEq, Inhabited, Repr

namespace Path

/-! ## Components -/

/-- A step of a path. -/
inductive Component where
  | root
  | here
  | above
  | name (text : List Char)
  deriving DecidableEq, Repr

/-- The step that a part between two separators stands for; an empty part and `.` are none. -/
def Component.ofSegment? : List Char → Option Component
  | [] => none
  | ['.'] => none
  | ['.', '.'] => some .above
  | segment => some (.name segment)

/-- The steps after the first separator or the first `.`. -/
def innerComponents (cs : List Char) : List Component :=
  (Text.splitAt '/' cs).filterMap Component.ofSegment?

/-- The steps of a path. -/
def components (p : Path) : List Component :=
  match p.text.toList with
  | '/' :: rest => .root :: innerComponents rest
  | ['.'] => [.here]
  | '.' :: '/' :: rest => .here :: innerComponents rest
  | cs => innerComponents cs

/-- Whether two paths have the same components. -/
def same (p q : Path) : Bool :=
  p.components == q.components

theorem same_iff {p q : Path} : p.same q = true ↔ p.components = q.components := by
  simp [same]

@[simp] theorem same_self (p : Path) : p.same p = true := by
  simp [same]

theorem same_comm (p q : Path) : p.same q = q.same p := by
  simp [same, Bool.beq_comm]

theorem same_trans {p q r : Path} (h : p.same q = true) (h' : q.same r = true) :
    p.same r = true :=
  same_iff.2 ((same_iff.1 h).trans (same_iff.1 h'))

/-- Whether a path starts at the root. -/
def isAbsolute (p : Path) : Bool :=
  p.text.toList.head? == some '/'

/-! ## Parts -/

/-- A path cut after its root or leading `.`, with the rest cut at separators. -/
def cut (p : Path) : List Char × List (List Char) :=
  match p.text.toList with
  | '/' :: rest => (['/'], Text.splitAt '/' rest)
  | ['.'] => (['.'], [])
  | '.' :: '/' :: rest => (['.'], Text.splitAt '/' ('/' :: rest))
  | cs => ([], Text.splitAt '/' cs)

/-- Whether a part between separators is no step of its own. -/
def isIdle (segment : List Char) : Bool :=
  (Component.ofSegment? segment).isNone

/-- The parts of a path after its start, last first, from its last step on. -/
def backward (p : Path) : List (List Char) :=
  p.cut.2.reverse.dropWhile isIdle

/-- The path without its last step; none for the root and the empty path. -/
def parent? (p : Path) : Option Path :=
  match p.backward with
  | [] => if p.cut.1 = ['.'] then some ⟨""⟩ else none
  | _ :: before =>
    some ⟨String.ofList (p.cut.1 ++ Text.joinWith ['/'] (before.dropWhile isIdle).reverse)⟩

/-- The last step of a path, when it is a name. -/
def fileName? (p : Path) : Option (List Char) :=
  match p.backward with
  | [] => none
  | last :: _ => if last = ['.', '.'] then none else some last

/-- `q` seen from the directory `p`: an absolute path replaces, any other is appended. -/
def join (p q : Path) : Path :=
  if q.isAbsolute then q
  else if p.text = "" ∨ p.text.toList.getLast? = some '/' then ⟨p.text ++ q.text⟩
  else ⟨p.text ++ "/" ++ q.text⟩

theorem isAbsolute_append {p : Path} (h : p.text ≠ "") (more : String) :
    isAbsolute ⟨p.text ++ more⟩ = p.isAbsolute := by
  have hne : p.text.toList ≠ [] := fun hnil => h (String.toList_inj.1 hnil)
  rw [isAbsolute, isAbsolute, String.toList_append]
  cases hp : p.text.toList with
  | nil => exact absurd hp hne
  | cons c cs => rfl

/-- A path as seen from a directory that may not be known; an absolute one is the same from all. -/
def seenFrom? (directory : Option Path) (path : Path) : Option Path :=
  if path.isAbsolute then some path else directory.map (·.join path)

/-- A path seen from another is absolute when one of the two is. -/
theorem isAbsolute_join (p q : Path) :
    (p.join q).isAbsolute = (q.isAbsolute || p.isAbsolute) := by
  unfold join
  by_cases hq : q.isAbsolute = true
  · rw [if_pos hq, hq, Bool.true_or]
  · rw [if_neg hq, Bool.eq_false_iff.2 hq, Bool.false_or]
    by_cases hp : p.text = ""
    · have hempty : p.isAbsolute = false := by simp [isAbsolute, hp]
      rw [if_pos (.inl hp), hp, String.empty_append, hempty]
      exact Bool.eq_false_iff.2 hq
    · split
      · exact isAbsolute_append hp _
      · rw [String.append_assoc]
        exact isAbsolute_append hp _

end Path

/-! ## Maps -/

/-- Values kept under paths. -/
structure PathMap (α : Type) where
  entries : List (Path × α) := []
  deriving Inhabited, Repr

namespace PathMap

variable {α : Type}

/-- The value kept under a path. -/
def find? (m : PathMap α) (p : Path) : Option α :=
  (m.entries.find? fun entry => entry.1.same p).map (·.2)

/-- Whether a value is kept under a path. -/
def contains (m : PathMap α) (p : Path) : Bool :=
  m.entries.any fun entry => entry.1.same p

/-- Keeps a value under a path. A path already there keeps its spelling. -/
def insert (m : PathMap α) (p : Path) (a : α) : PathMap α :=
  if m.contains p then
    ⟨m.entries.map fun entry => if entry.1.same p then (entry.1, a) else entry⟩
  else ⟨m.entries ++ [(p, a)]⟩

/-- Keeps nothing under a path. -/
def erase (m : PathMap α) (p : Path) : PathMap α :=
  ⟨m.entries.filter fun entry => !entry.1.same p⟩

/-- The paths, as first written. -/
def keys (m : PathMap α) : List Path :=
  m.entries.map (·.1)

/-- The values. -/
def values (m : PathMap α) : List α :=
  m.entries.map (·.2)

/-- Whether nothing is kept. -/
def isEmpty (m : PathMap α) : Bool :=
  m.entries.isEmpty

theorem contains_eq_isSome_find? (m : PathMap α) (p : Path) :
    m.contains p = (m.find? p).isSome := by
  rw [Bool.eq_iff_iff]
  simp [contains, find?, List.find?_isSome]

end PathMap

end EviAssist
