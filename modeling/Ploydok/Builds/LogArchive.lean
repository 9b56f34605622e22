import Mathlib.Data.List.Infix

/-! The archive of a build log, `services/build-log-archive.ts`. All attempts at a build append to
one file; the first call that finds a line in it makes the archive, and later calls leave it alone.
-/

namespace Ploydok.Builds.LogArchive

abbrev Bytes := List UInt8

def maxRawLogBytes : Nat := 50 * 1024 * 1024

def headTailBytes : Nat := 25 * 1024 * 1024

def marker (droppedMb : Nat) : Bytes :=
  ("\n\n[... TRUNCATED " ++ toString droppedMb ++
    " MB (kept first 25 MB and last 25 MB) ...]\n\n").toUTF8.toList

def truncateLog (raw : Bytes) : Bytes :=
  if raw.length ≤ maxRawLogBytes then raw
  else
    let dropped := raw.length - 2 * headTailBytes
    raw.take headTailBytes ++ marker ((dropped + 512 * 1024) / (1024 * 1024)) ++
      raw.drop (raw.length - headTailBytes)

structure BuildLog where
  file : Bytes := []
  archive : Option Bytes := none

def archiveBuildLog (b : BuildLog) : BuildLog :=
  if b.archive.isSome ∨ b.file = [] then b else { b with archive := some (truncateLog b.file) }

def BuildLog.served (b : BuildLog) : Bytes := b.archive.getD b.file

inductive Step where
  /-- An attempt logs a line. -/
  | log (line : Bytes)
  /-- The archive call of an attempt. -/
  | archive

def written (line : Bytes) : Bytes := line ++ [10]

def step (b : BuildLog) : Step → BuildLog
  | .log line => { b with file := b.file ++ written line }
  | .archive => archiveBuildLog b

def run (steps : List Step) : BuildLog := steps.foldl step {}

def Logged (steps : List Step) (text : Bytes) : Prop :=
  ∀ line, .log line ∈ steps → written line <:+: text

theorem file_archive (b : BuildLog) : (archiveBuildLog b).file = b.file := by
  unfold archiveBuildLog
  split <;> rfl

theorem logged_run (steps : List Step) : Logged steps (run steps).file := by
  induction steps using List.reverseRecOn with
  | nil => simp [Logged]
  | append_singleton steps s ih =>
    have hrun : run (steps ++ [s]) = step (run steps) s := by simp [run]
    intro line hline
    rw [hrun]
    cases s with
    | archive =>
      rw [step,file_archive]
      exact ih line (by simpa using hline)
    | log last =>
      rcases List.mem_append.mp hline with hline | hline
      · exact (ih line hline).trans (List.infix_append' [] _ _)
      · cases List.mem_singleton.mp hline
        exact (List.suffix_append _ _).isInfix

theorem served_archive (b : BuildLog) (hsize : b.file.length ≤ maxRawLogBytes) :
    (archiveBuildLog b).served = b.served := by
  unfold archiveBuildLog
  split_ifs with h
  · rfl
  · have hnone : b.archive = none := by simpa using (not_or.mp h).1
    simp [BuildLog.served,truncateLog,hsize,hnone]

/-- After `before`, the final attempt takes the steps `final`, with archive calls of earlier
attempts among them, and its own. -/
theorem served_final_iff (before final : List Step)
    (hsize : (run (before ++ final)).file.length ≤ maxRawLogBytes) :
    Logged final (run (before ++ final ++ [.archive])).served ↔
      ∀ archive, (run (before ++ final)).archive = some archive → Logged final archive := by
  have hrun : run (before ++ final ++ [.archive]) = archiveBuildLog (run (before ++ final)) := by
    simp [run,step]
  have hfile : Logged final (run (before ++ final)).file := fun line hline =>
    logged_run (before ++ final) line (List.mem_append_right _ hline)
  rw [hrun,served_archive _ hsize,BuildLog.served]
  cases (run (before ++ final)).archive with
  | none => simpa using hfile
  | some archive => simp

/-- The archive call of an earlier attempt comes after the last line of the final one. -/
theorem served_final_iff_second : let final : List Step := [.log [98], .archive]
    (run ([.log [97]] ++ final)).archive = some [97, 10, 98, 10] ∧
      Logged final (run ([.log [97]] ++ final ++ [.archive])).served := by
  refine ⟨by decide,(served_final_iff [.log [97]] [.log [98], .archive] (by decide)).mpr ?_⟩
  rintro archive harchive line hline
  obtain rfl : [97, 10, 98, 10] = archive := Option.some.inj harchive
  obtain rfl : line = [98] := by simpa using hline
  decide

theorem retry_not_served : ¬ ∀ before final : List Step,
    (run (before ++ final)).file.length ≤ maxRawLogBytes →
      Logged final (run (before ++ final ++ [.archive])).served := by
  intro h
  have hline := h [.log [97], .archive] [.log [98]] (by decide) [98] (by simp)
  exact absurd hline (by decide)

end Ploydok.Builds.LogArchive
