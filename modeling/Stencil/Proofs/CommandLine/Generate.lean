import Stencil.CommandLine.Run
import Stencil.Proofs.Generation.File

/-!
# Previews, checks and generation

A dry run for one template says on its result channel what generating would do; its log and its
faults go to the other channel. So the three commands that look at one output can be compared, and
they agree: the output is current for all of them or for none. Generating makes it current, and
generating again finds nothing to do.
-/

namespace Stencil

namespace Display

variable (display : Display)

/-- The log is no result. -/
theorem filter_log (entries : List Entry) :
    (display.log entries).filter (·.channel = .results) = [] := by
  rw [List.filter_eq_nil_iff]
  intro chunk hchunk
  obtain ⟨entry, -, rfl⟩ := List.mem_map.mp hchunk
  simp

/-- The result of a dry run for one template is one line, or nothing if it fails. -/
theorem written_preview (attempt : Attempt WriteOutcome) :
    (display.generateReport true [attempt]).written .results =
      match attempt.outcome with
      | .error _ => ""
      | .ok .unchanged => "Unchanged: " ++ attempt.output.text.string ++ "\n"
      | .ok .written => "Would write: " ++ attempt.output.text.string ++ "\n" := by
  obtain ⟨input, output, entries, value⟩ := attempt
  cases value with
  | error fault =>
    simp [generateReport, generateAttempt, Transcript.written, filter_log, failure, errorLine,
      failureCount, Attempt.isFailure, diagnostic, Chunk.message]
  | ok outcome =>
    cases outcome <;>
      simp [generateReport, generateAttempt, Transcript.written, filter_log, writeLine,
        failureCount, Attempt.isFailure, Chunk.result]

end Display

/-- A dry run for one template previews its output. -/
theorem runConfigured_preview (tree : FileTree) (display : Display) (config : Config)
    (input output : Path) :
    ((CommandLine.runConfigured display config (.generate [input] (some output) true) :
        StateM FileTree Transcript) tree).1 =
      display.generateReport true
        [⟨input, output, ((previewFile config input output : StateM FileTree _) tree).1⟩] := rfl

private theorem announcement_ne (text : String) :
    "" ≠ "Unchanged: " ++ text ++ "\n" ∧
      "Would write: " ++ text ++ "\n" ≠ "Unchanged: " ++ text ++ "\n" := by
  constructor
  · intro h
    have hlist := congrArg String.toList h
    simp at hlist
  · intro h
    have hlist := congrArg String.toList h
    simp at hlist

/-- Checking an output, generating it and a dry run that generates it agree on whether there is
anything to do. After generating there is not: the output is up to date, and generating again finds
it unchanged and leaves the tree as it is. -/
theorem check_generate_preview_agree (tree : FileTree) (display : Display) (config : Config)
    (input output : Path) :
    let check := (checkFile config input output : StateM FileTree _)
    let generate := (generateFile config input output : StateM FileTree _)
    let preview := (CommandLine.runConfigured display config
      (.generate [input] (some output) true) : StateM FileTree Transcript)
    ((check tree).1.value = .ok .upToDate ↔ (generate tree).1.value = .ok .unchanged) ∧
      ((generate tree).1.value = .ok .unchanged ↔
        (preview tree).1.written .results = "Unchanged: " ++ output.text.string ++ "\n") ∧
      ∀ outcome, (generate tree).1.value = .ok outcome →
        (check (generate tree).2).1.value = .ok .upToDate ∧
          (generate (generate tree).2).1.value = .ok .unchanged ∧
          (generate (generate tree).2).2 = (generate tree).2 := by
  intro check generate preview
  refine ⟨?_, ?_, ?_⟩
  · rw [checkFile_upToDate_iff, generateFile_unchanged_iff]
  · simp only [preview]
    rw [generateFile_unchanged_iff, ← previewFile_unchanged_iff, runConfigured_preview,
      Display.written_preview]
    obtain ⟨hempty, hwould⟩ := announcement_ne output.text.string
    simp only [Attempt.outcome]
    cases ((previewFile config input output : StateM FileTree _) tree).1.value with
    | error fault => simp [hempty]
    | ok outcome => cases outcome <;> simp [hwould]
  · intro outcome houtcome
    have hcurrent := isCurrent_generateFile tree config input output houtcome
    exact ⟨(checkFile_upToDate_iff _ config input output).mpr hcurrent,
      (generateFile_unchanged_iff _ config input output).mpr hcurrent,
      generateFile_of_isCurrent _ config input output hcurrent⟩

end Stencil
