import EviAssist.Config.Resolved
import Mathlib.Data.List.Basic

/-!
# Paths of a resolved configuration

Include directories are seen from the workspace, and so is a program that the configuration names.
A program that the environment names is taken as it is written, and so is the directory of the
search path in which one is found.

* `Surroundings.Names`, `Surroundings.FindsIn`: where the environment leads to a program.
* `Config.executable_resolve_eq_some_iff`: the sources of evi's program.
* `Config.isAbsolute_of_mem_includeDirs`: include directories are absolute.
* `Config.absolute_iff_not_leadsToRelative`: all paths are absolute, unless the environment leads
  to a relative program.
-/

namespace EviAssist

/-! ## Programs of the environment -/

namespace Surroundings

variable {s : Surroundings} {p : Path}

/-- Whether the environment names the program `p`; an empty name counts as none. -/
def Names (s : Surroundings) (p : Path) : Prop :=
  s.executable = some p ∧ p.text ≠ ""

/-- Whether `dir` is the first directory of the search path in which evi's program can be run. -/
def FindsIn (s : Surroundings) (dir : Path) : Prop :=
  ∃ searchPath before after, s.searchPath = some searchPath ∧
    (Text.splitAt ':' searchPath.toList).map (fun d => Path.mk (String.ofList d)) =
      before ++ dir :: after ∧
    s.canRun (dir.join Config.programName) = true ∧
    ∀ earlier ∈ before, s.canRun (earlier.join Config.programName) = false

/-- Whether the environment leads to a relative program: it names one, or it names none and the
first directory of the search path with evi's program is relative. -/
def LeadsToRelative (s : Surroundings) : Prop :=
  (∃ p, s.Names p ∧ p.isAbsolute = false) ∨
    (∀ p, ¬s.Names p) ∧ ∃ dir, s.FindsIn dir ∧ dir.isAbsolute = false

theorem filter_executable_eq_some_iff :
    s.executable.filter (·.text ≠ "") = some p ↔ s.Names p := by
  rw [Option.filter_eq_some_iff, decide_eq_true_eq, Names]

theorem filter_executable_eq_none_iff :
    s.executable.filter (·.text ≠ "") = none ↔ ∀ p, ¬s.Names p := by
  rw [Option.eq_none_iff_forall_ne_some]
  exact forall_congr' fun p => not_congr filter_executable_eq_some_iff

theorem bind_findInPath?_eq_some_iff :
    s.searchPath.bind (Config.findInPath? s.canRun Config.programName) = some p ↔
      ∃ dir, s.FindsIn dir ∧ dir.join Config.programName = p := by
  simp only [Option.bind_eq_some_iff, Config.findInPath?, Config.candidates, FindsIn]
  constructor
  · rintro ⟨searchPath, hs, hfind⟩
    obtain ⟨hrun, before, after, hsplit, hbefore⟩ := List.find?_eq_some_iff_append.1 hfind
    obtain ⟨first, rest, hdirs, hfirst, hrest⟩ := List.map_eq_append_iff.1 hsplit
    obtain ⟨dir, later, rfl, rfl, -⟩ := List.map_eq_cons_iff.1 hrest
    refine ⟨⟨String.ofList dir⟩, ⟨searchPath, first.map fun d => ⟨String.ofList d⟩,
      later.map fun d => ⟨String.ofList d⟩, hs, by rw [hdirs, List.map_append]; rfl, hrun, ?_⟩, rfl⟩
    intro earlier hearlier
    obtain ⟨d, hd, rfl⟩ := List.mem_map.1 hearlier
    have hmem : Path.join ⟨String.ofList d⟩ Config.programName ∈ before :=
      hfirst ▸ List.mem_map_of_mem hd
    simpa using hbefore _ hmem
  · rintro ⟨dir, ⟨searchPath, before, after, hs, hdirs, hrun, hbefore⟩, rfl⟩
    refine ⟨searchPath, hs, List.find?_eq_some_iff_append.2 ⟨hrun,
      before.map (·.join Config.programName), after.map (·.join Config.programName), ?_, ?_⟩⟩
    · have hmap := congrArg (List.map (·.join Config.programName)) hdirs
      rwa [List.map_map, List.map_append, List.map_cons] at hmap
    · intro candidate hcandidate
      obtain ⟨earlier, hearlier, rfl⟩ := List.mem_map.1 hcandidate
      rw [hbefore earlier hearlier]
      rfl

end Surroundings

/-! ## Resolved paths -/

namespace Config

variable {c : Config} {s : Surroundings} {p w : Path}

/-- **The sources of evi's program.** The configured one is seen from the workspace; without one,
the environment names the program, or the search path leads to it. -/
theorem executable_resolve_eq_some_iff :
    (c.resolve s).executable = some p ↔
      (∃ e, c.executable = some e ∧
        (e.isAbsolute = true ∧ e = p ∨
          e.isAbsolute = false ∧ ∃ w, s.workspace = some w ∧ w.join e = p)) ∨
      c.executable = none ∧
        (s.Names p ∨
          (∀ q, ¬s.Names q) ∧ ∃ dir, s.FindsIn dir ∧ dir.join programName = p) := by
  rw [resolve, resolveExecutable]
  cases c.executable with
  | some e =>
    by_cases he : e.isAbsolute = true
    · simp [he]
    · simp [Bool.eq_false_iff.2 he]
  | none =>
    simp only [Option.or_eq_some_iff, Surroundings.filter_executable_eq_some_iff,
      Surroundings.filter_executable_eq_none_iff, Surroundings.bind_findInPath?_eq_some_iff,
      reduceCtorEq, false_and, exists_false, false_or, true_and]

/-- Every include directory is absolute, however it is spelled. -/
theorem isAbsolute_of_mem_includeDirs (hw : s.workspace = some w) (habs : w.isAbsolute = true)
    {dir : Path} (hdir : dir ∈ (c.resolve s).includeDirs) : dir.isAbsolute = true := by
  obtain ⟨written, -, hresolve⟩ := List.mem_filterMap.1 hdir
  rw [hw] at hresolve
  cases hresolve
  rw [Path.isAbsolute_join, habs, Bool.or_true]

/-- **The paths of a resolved configuration in an absolute workspace.** Include directories are
absolute, and so is evi's program, unless the configuration leaves it out and the environment
leads to a relative one. -/
theorem absolute_iff_not_leadsToRelative (c : Config) (s : Surroundings) {w : Path}
    (hw : s.workspace = some w) (habs : w.isAbsolute = true) :
    (∀ dir ∈ (c.resolve s).includeDirs, dir.isAbsolute = true) ∧
      ((∀ p, (c.resolve s).executable = some p → p.isAbsolute = true) ↔
        ¬(c.executable = none ∧ s.LeadsToRelative)) := by
  refine ⟨fun dir hdir => isAbsolute_of_mem_includeDirs hw habs hdir, ?_⟩
  have hname : programName.isAbsolute = false := by decide
  constructor
  · rintro h ⟨hc, ⟨p, hp, hrelative⟩ | ⟨hnone, dir, hdir, hrelative⟩⟩
    · have hfound : (c.resolve s).executable = some p :=
        executable_resolve_eq_some_iff.2 (.inr ⟨hc, .inl hp⟩)
      have habsolute := h p hfound
      rw [hrelative] at habsolute
      cases habsolute
    · have hfound : (c.resolve s).executable = some (dir.join programName) :=
        executable_resolve_eq_some_iff.2 (.inr ⟨hc, .inr ⟨hnone, dir, hdir, rfl⟩⟩)
      have habsolute := h _ hfound
      rw [Path.isAbsolute_join, hname, hrelative] at habsolute
      cases habsolute
  · intro h p hp
    obtain ⟨e, hc, ⟨he, rfl⟩ | ⟨-, w', hw', rfl⟩⟩ | ⟨hc, hp | ⟨hnone, dir, hdir, rfl⟩⟩ :=
      executable_resolve_eq_some_iff.1 hp
    · exact he
    · cases hw.symm.trans hw'
      rw [Path.isAbsolute_join, habs, Bool.or_true]
    · by_contra hrelative
      exact h ⟨hc, .inl ⟨p, hp, Bool.eq_false_iff.2 hrelative⟩⟩
    · by_contra hrelative
      rw [Path.isAbsolute_join, hname, Bool.false_or] at hrelative
      exact h ⟨hc, .inr ⟨hnone, dir, hdir, Bool.eq_false_iff.2 hrelative⟩⟩

/-- A relative program that the environment names stays relative in any workspace. -/
theorem runs_relative_program :
    let s : Surroundings := { workspace := some ⟨"/"⟩, executable := some ⟨"bin/evi"⟩ }
    s.workspace = some ⟨"/"⟩ ∧ Path.isAbsolute ⟨"/"⟩ = true ∧
      (resolve {} s).executable = some ⟨"bin/evi"⟩ ∧ s.LeadsToRelative ∧
      ¬∀ p, (resolve {} s).executable = some p → p.isAbsolute = true := by
  intro s
  have hw : s.workspace = some ⟨"/"⟩ := rfl
  have habs : Path.isAbsolute ⟨"/"⟩ = true := by decide
  have hs : s.LeadsToRelative := .inl ⟨⟨"bin/evi"⟩, ⟨rfl, by decide⟩, by decide⟩
  obtain ⟨-, hiff⟩ := absolute_iff_not_leadsToRelative {} s hw habs
  exact ⟨hw, habs, rfl, hs, fun h => hiff.1 h ⟨rfl, hs⟩⟩

end Config

end EviAssist
