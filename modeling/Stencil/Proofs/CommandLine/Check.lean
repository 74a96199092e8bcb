import Stencil.Proofs.CommandLine.Batch
import Stencil.Proofs.CommandLine.Generate
import Stencil.Proofs.Report.JsonValue

/-!
# The verdict of a check

Checking says three times whether anything is to be done: by its code, by the value `ok` of the
verdict in JSON and by the line of the verdict in words. All three are read off the same attempts
and agree, whatever mixture of failures and outcomes the attempts are. Nothing else is a result:
differences, faults and the log go to the other channel.
-/

namespace Stencil

/-! ## Codes -/

variable {attempts : List (Attempt CheckOutcome)}

/-- Checking ends with the code 2 exactly if an attempt failed. -/
theorem checkExit_eq_two_iff :
    checkExit attempts = 2 ↔ ∃ attempt ∈ attempts, ∃ fault, attempt.outcome = .error fault := by
  rw [(checkExit_iff attempts).1, ne_eq, failureCount_eq_zero_iff]
  push Not
  refine exists_congr fun attempt => and_congr_right fun _ => ?_
  rw [Attempt.isFailure]
  cases attempt.outcome <;> simp

/-- Checking ends with the code 1 exactly if no attempt failed and an output is stale or missing. -/
theorem checkExit_eq_one_iff :
    checkExit attempts = 1 ↔ (∀ attempt ∈ attempts, ∃ outcome, attempt.outcome = .ok outcome) ∧
      ∃ attempt ∈ attempts, ∃ outcome, attempt.outcome = .ok outcome ∧ outcome ≠ .upToDate := by
  rw [(checkExit_iff attempts).2.1, failureCount_eq_zero_iff, ne_eq, outdatedCount_eq_zero_iff]
  push Not
  simp only [Attempt.isFailure_eq_false_iff]

/-- Both verdicts are good exactly if the code is 0. -/
theorem passed_iff :
    outdatedCount attempts = 0 ∧ failureCount attempts = 0 ↔ checkExit attempts = 0 := by
  rw [(checkExit_iff attempts).2.2, and_comm]

/-! ## The verdict in JSON -/

theorem checkedOf_eq (attempts : List (Attempt CheckOutcome)) :
    checkedOf attempts = attempts.filterMap fun attempt =>
      attempt.outcome.toOption.map (Checked.mk attempt.input attempt.output) := by
  refine List.filterMap_congr fun attempt _ => ?_
  cases attempt.outcome <;> rfl

/-- The word for what is found of an output. -/
inductive CheckOutcome.IsCalled : CheckOutcome → Text → Prop
  | upToDate : IsCalled .upToDate "up_to_date".toList
  | stale {expected current : Text} : IsCalled (.stale expected current) "stale".toList
  | missing : IsCalled .missing "missing".toList

/-- What the verdict in JSON says of an output that could be compared. -/
inductive IsFileEntry (checked : Checked) : Text → Prop
  | intro {file output word : Text} (hfile : JsonValue.IsString checked.input.text file)
      (houtput : JsonValue.IsString checked.output.text output)
      (hword : checked.outcome.IsCalled word) :
      IsFileEntry checked ("\x7b\"file\":".toList ++ file ++ ",\"output\":".toList ++ output ++
        ",\"status\":\"".toList ++ word ++ "\"\x7d".toList)

/-- The verdict in JSON: one object, with an entry for each output that could be compared. -/
inductive IsVerdict (files : List Checked) (good : Bool) : Text → Prop
  | intro {entries : List Text} (hentries : List.Forall₂ IsFileEntry files entries) :
      IsVerdict files good ("\x7b\"files\":[".toList ++ [','].intercalate entries ++
        "],\"ok\":".toList ++ (if good then "true" else "false").toList ++ "\x7d\n".toList)

/-- What the verdict in JSON says of an output, as a value. -/
def fileEntry (checked : Checked) : JsonValue :=
  .object [("file".toList, .string checked.input.text),
    ("output".toList, .string checked.output.text),
    ("status".toList, .string checked.outcome.status.toList)]

/-- The verdict in JSON lists the attempts that did not fail, and says whether the code is 0. -/
theorem checkJson_eq (attempts : List (Attempt CheckOutcome)) :
    checkJson attempts = .object [
      ("files".toList, .array ((checkedOf attempts).map fileEntry)),
      ("ok".toList, .bool (checkExit attempts == 0))] := by
  have hok : (outdatedCount attempts == 0 && failureCount attempts == 0) =
      (checkExit attempts == 0) := by
    rw [Bool.eq_iff_iff, Bool.and_eq_true, beq_iff_eq, beq_iff_eq, beq_iff_eq, passed_iff]
  have hfields : ∀ ok files : JsonValue,
      JsonValue.ofFields [("ok".toList, ok), ("files".toList, files)] =
        .object [("files".toList, files), ("ok".toList, ok)] := fun ok files => by cbv
  have hentry : ∀ file output status : JsonValue,
      JsonValue.ofFields [("file".toList, file), ("output".toList, output),
        ("status".toList, status)] =
      .object [("file".toList, file), ("output".toList, output), ("status".toList, status)] :=
    fun file output status => by cbv
  simp only [checkJson, hfields, hok, hentry]
  rfl

theorem CheckOutcome.isCalled_iff {outcome : CheckOutcome} {word : Text} :
    outcome.IsCalled word ↔ outcome.status.toList = word := by
  constructor
  · rintro (_ | _ | _) <;> rfl
  · rintro rfl
    cases outcome with
    | upToDate => exact .upToDate
    | stale => exact .stale
    | missing => exact .missing

/-- No outcome's word has to be escaped. -/
theorem CheckOutcome.quote_status (outcome : CheckOutcome) :
    JsonValue.quote outcome.status.toList = '"' :: outcome.status.toList ++ ['"'] := by
  cases outcome <;> cbv

theorem compact_fileEntry (checked : Checked) :
    (fileEntry checked).compact = "\x7b\"file\":".toList ++ JsonValue.quote checked.input.text ++
      ",\"output\":".toList ++ JsonValue.quote checked.output.text ++ ",\"status\":\"".toList ++
      checked.outcome.status.toList ++ "\"\x7d".toList := by
  have hfile : JsonValue.quote ['f', 'i', 'l', 'e'] = ['"', 'f', 'i', 'l', 'e', '"'] := rfl
  have houtput : JsonValue.quote ['o', 'u', 't', 'p', 'u', 't'] =
      ['"', 'o', 'u', 't', 'p', 'u', 't', '"'] := rfl
  have hstatus : JsonValue.quote ['s', 't', 'a', 't', 'u', 's'] =
      ['"', 's', 't', 'a', 't', 'u', 's', '"'] := rfl
  simp [fileEntry, JsonValue.compact, JsonValue.compactFields, hfile, houtput, hstatus,
    checked.outcome.quote_status]

theorem isFileEntry_iff (checked : Checked) (written : Text) :
    IsFileEntry checked written ↔ (fileEntry checked).compact = written := by
  rw [compact_fileEntry]
  constructor
  · rintro ⟨hfile, houtput, hword⟩
    rw [JsonValue.isString_iff.mp hfile, JsonValue.isString_iff.mp houtput,
      CheckOutcome.isCalled_iff.mp hword]
  · rintro rfl
    exact .intro (JsonValue.isString_iff.mpr rfl) (JsonValue.isString_iff.mpr rfl)
      (CheckOutcome.isCalled_iff.mpr rfl)

theorem compact_verdict (files : List Checked) (good : Bool) :
    (JsonValue.object [("files".toList, .array (files.map fileEntry)),
      ("ok".toList, .bool good)]).compact ++ ['\n'] =
      "\x7b\"files\":[".toList ++
        [','].intercalate (files.map fun checked => (fileEntry checked).compact) ++
        "],\"ok\":".toList ++ (if good then "true" else "false").toList ++ "\x7d\n".toList := by
  have hfiles : JsonValue.quote ['f', 'i', 'l', 'e', 's'] =
      ['"', 'f', 'i', 'l', 'e', 's', '"'] := rfl
  have hok : JsonValue.quote ['o', 'k'] = ['"', 'o', 'k', '"'] := rfl
  have hgood : JsonValue.boolText good = (if good then "true" else "false").toList := by
    cases good <;> rfl
  simp [JsonValue.compact, JsonValue.compactFields, JsonValue.compactItems_eq, hfiles, hok, hgood,
    Function.comp_def]

theorem isVerdict_iff {files : List Checked} {good : Bool} {written : Text} :
    IsVerdict files good written ↔
      (JsonValue.object [("files".toList, .array (files.map fileEntry)),
        ("ok".toList, .bool good)]).compact ++ ['\n'] = written := by
  rw [compact_verdict]
  constructor
  · rintro ⟨hentries⟩
    rw [(JsonValue.forall₂_iff_map_eq isFileEntry_iff).mp hentries]
  · rintro rfl
    exact .intro ((JsonValue.forall₂_iff_map_eq isFileEntry_iff).mpr rfl)

/-! ## The result channel -/

namespace Display

variable (display : Display)

theorem filter_checkAttempt (attempt : Attempt CheckOutcome) :
    (display.checkAttempt attempt).filter (·.channel = .results) = [] := by
  rw [checkAttempt, List.filter_append, filter_log]
  cases attempt.outcome <;> simp [failure, diagnostic, Chunk.message]

theorem filter_checkedLines (diff : Bool) (checked : Checked) :
    (display.checkedLines diff checked).filter (·.channel = .results) = [] := by
  have hline : ∀ line, (display.diffLine line).channel ≠ .results := by
    rintro ⟨kind, text⟩
    cases kind <;> exact Channel.noConfusion
  rw [checkedLines]
  cases checked.outcome with
  | upToDate => rfl
  | missing => rfl
  | stale expected current =>
    simp only [List.filter_eq_nil_iff, List.mem_cons, decide_eq_true_eq]
    rintro chunk (rfl | hchunk)
    · exact Channel.noConfusion
    · split at hchunk
      · obtain ⟨line, -, rfl⟩ := List.mem_map.mp hchunk
        exact hline line
      · exact absurd hchunk List.not_mem_nil

/-- The result of checking is the verdict and nothing else. -/
theorem written_checkReport (diff : Bool) (format : ReportFormat)
    (attempts : List (Attempt CheckOutcome)) :
    (display.checkReport diff format attempts).written .results =
      match format with
      | .json => (checkJson attempts).compact.string ++ "\n"
      | .text =>
        if checkExit attempts = 0 then "Check passed: all generated files are up to date.\n"
        else "" := by
  have hattempts : (attempts.flatMap display.checkAttempt).filter (·.channel = .results) = [] := by
    simp only [List.filter_flatMap, filter_checkAttempt, List.flatMap_eq_nil_iff, implies_true]
  have hchecked : ((checkedOf attempts).flatMap (display.checkedLines diff)).filter
      (·.channel = .results) = [] := by
    simp only [List.filter_flatMap, filter_checkedLines, List.flatMap_eq_nil_iff, implies_true]
  simp only [checkReport, Transcript.written, List.filter_append, hattempts, List.nil_append]
  cases format with
  | json => simp [Chunk.result]
  | text =>
    simp only [checkText, List.filter_append, hchecked, List.nil_append]
    by_cases hpassed : checkExit attempts = 0
    · rw [if_pos hpassed, if_pos (passed_iff.mpr hpassed)]
      rfl
    · rw [if_neg hpassed, if_neg (mt passed_iff.mp hpassed)]
      split <;> rfl

end Display

/-- What is logged before is no part of a result. -/
theorem Transcript.written_after_log (display : Display) (entries : List Entry)
    (transcript : Transcript) :
    (transcript.after (display.log entries)).written .results = transcript.written .results := by
  rw [written, written, after, List.filter_append, display.filter_log, List.nil_append]

namespace CommandLine

variable {environment : Environment} {options : CommonOptions} {tree : FileTree} {config : Config}

/-- Checking templates in a tree changes nothing, and its code, its verdict in JSON and its verdict
in words say the same of the outcomes: the code is 2 if an outcome is a failure, or else 1 if an
output is stale or missing, or else 0. -/
theorem check_verdicts (hconfig : configIn environment options tree = .ok config)
    (inputs : List Path) :
    let outcome := fun input : Path =>
      ((checkFile config input (config.output.outputPath input) : StateM FileTree _) tree).1.value
    let run := fun (diff : Bool) (format : ReportFormat) =>
      (runCommand environment options (.check inputs diff format) : StateM FileTree _) tree
    ∃ exit : Nat,
      (∀ diff format, (run diff format).1.exit = exit ∧ (run diff format).2 = tree) ∧
      (exit = 2 ↔ ∃ input ∈ inputs, ∃ fault, outcome input = .error fault) ∧
      (exit = 1 ↔ (∀ input ∈ inputs, ∃ found, outcome input = .ok found) ∧
        ∃ input ∈ inputs, ∃ found, outcome input = .ok found ∧ found ≠ .upToDate) ∧
      (exit = 0 ↔ ∀ input ∈ inputs, outcome input = .ok .upToDate) ∧
      (∀ diff (written : Text), (run diff .json).1.written .results = written.string ↔
        IsVerdict (inputs.filterMap fun input =>
          (outcome input).toOption.map (Checked.mk input (config.output.outputPath input)))
          (exit == 0) written) ∧
      ∀ diff, (run diff .text).1.written .results =
        if exit = 0 then "Check passed: all generated files are up to date.\n" else "" := by
  intro outcome run
  have hrun := runCommand_check_run hconfig inputs
  let attempts := inputs.map fun input => Attempt.mk input (config.output.outputPath input)
    ((checkFile config input (config.output.outputPath input) : StateM FileTree _) tree).1
  refine ⟨checkExit attempts, ?_, ?_, ?_, ?_, ?_, ?_⟩
  · intro diff format
    simp only [run]
    rw [hrun]
    exact ⟨rfl, rfl⟩
  · rw [checkExit_eq_two_iff]
    simp only [attempts, List.mem_map, exists_exists_and_eq_and]
    rfl
  · rw [checkExit_eq_one_iff, List.forall_mem_map]
    simp only [attempts, List.mem_map, exists_exists_and_eq_and]
    rfl
  · rw [checkExit_eq_zero_iff, List.forall_mem_map]
  · intro diff written
    have hchecked : checkedOf attempts = inputs.filterMap fun input =>
        (outcome input).toOption.map (Checked.mk input (config.output.outputPath input)) := by
      rw [checkedOf_eq, List.filterMap_map]
      rfl
    simp only [run]
    rw [hrun, configLog, Transcript.written_after_log, Display.written_checkReport, checkJson_eq,
      ← hchecked, isVerdict_iff, ← String.ofList_inj, String.ofList_append]
    rfl
  · intro diff
    simp only [run]
    rw [hrun, configLog, Transcript.written_after_log, Display.written_checkReport]

/-- What checking a template finds with the settings that hold when nothing else is said. -/
private def outcomeOf (tree : FileTree) (input : Path) : Except Error CheckOutcome :=
  ((checkFile {} input (({} : Config).output.outputPath input) : StateM FileTree _) tree).1.value

private theorem outcomeOf_plain {tree : FileTree} {input : Path}
    (hsame : tree.isSame input (({} : Config).output.outputPath input) = false)
    (hread : tree.readText input = .ok ['n']) :
    outcomeOf tree input =
      match tree.readText (({} : Config).output.outputPath input) with
      | .error .notFound => .ok .missing
      | .error fault => .error (.file fault)
      | .ok current => if current = ['n'] then .ok .upToDate else .ok (.stale ['n'] current) := by
  have hcontent : (Source.ofText input ['n']).content = ['n'] := by cbv
  have hplain : ¬ Marker.openingStart ({} : Config).tag <:+: ['n'] := by decide
  exact checkFile_of_ok tree _ _ _ (FileTree.rendering_of_not hsame hread (hcontent ▸ hplain))

/-- A template that fails decides the code. The entries of the others stand in the order in which
they were named, and a name with a quotation mark and a control character in it is escaped. -/
theorem check_verdicts_failed :
    let tree := directoryOf [("a.cs", "n"), ("a.g.cs", "o"), ("\"\x1f.cs", "n"),
      ("\"\x1f.g.cs", "n"), ("c.cs", "n")]
    let inputs := ["a.cs", "b.cs", "\"\x1f.cs", "c.cs"].map fun name => Path.mk name.toList
    let verdict := "\x7b\"files\":[" ++
      "\x7b\"file\":\"a.cs\",\"output\":\"a.g.cs\",\"status\":\"stale\"\x7d," ++
      "\x7b\"file\":\"\\\"\\u001f.cs\",\"output\":\"\\\"\\u001f.g.cs\"," ++
      "\"status\":\"up_to_date\"\x7d," ++
      "\x7b\"file\":\"c.cs\",\"output\":\"c.g.cs\",\"status\":\"missing\"\x7d]," ++
      "\"ok\":false\x7d\n"
    let result := (runCommand bareEnvironment noOptions (.check inputs true .json) :
      StateM FileTree _) tree
    result.1.exit = 2 ∧ result.2 = tree ∧ result.1.written .results = verdict := by
  intro tree inputs verdict result
  have hconfig : configIn bareEnvironment noOptions tree = .ok {} := by cbv
  have hstale : outcomeOf tree ⟨"a.cs".toList⟩ = .ok (.stale ['n'] ['o']) :=
    (outcomeOf_plain (by cbv) (by cbv)).trans (by cbv)
  have hcurrent : outcomeOf tree ⟨"\"\x1f.cs".toList⟩ = .ok .upToDate :=
    (outcomeOf_plain (by cbv) (by cbv)).trans (by cbv)
  have hmissing : outcomeOf tree ⟨"c.cs".toList⟩ = .ok .missing :=
    (outcomeOf_plain (by cbv) (by cbv)).trans (by cbv)
  have hfailed : outcomeOf tree ⟨"b.cs".toList⟩ = .error (.file .notFound) := by cbv
  obtain ⟨exit, hsame, htwo, -, -, hjson, -⟩ := check_verdicts hconfig inputs
  obtain rfl : exit = 2 := htwo.mpr ⟨⟨"b.cs".toList⟩, by simp [inputs], _, hfailed⟩
  let checked : List Checked := [⟨⟨"a.cs".toList⟩, ⟨"a.g.cs".toList⟩, .stale ['n'] ['o']⟩,
    ⟨⟨"\"\x1f.cs".toList⟩, ⟨"\"\x1f.g.cs".toList⟩, .upToDate⟩,
    ⟨⟨"c.cs".toList⟩, ⟨"c.g.cs".toList⟩, .missing⟩]
  have hchecked : (inputs.filterMap fun input => (outcomeOf tree input).toOption.map
      (Checked.mk input (({} : Config).output.outputPath input))) = checked := by
    simp only [inputs, List.map_cons, List.map_nil, List.filterMap_cons, hstale, hcurrent, hmissing,
      hfailed]
    cbv
  have hverdict : IsVerdict checked false verdict.toList := isVerdict_iff.mpr (by decide +kernel)
  have hwritten : result.1.written .results = Text.string verdict.toList := by
    rw [← hchecked] at hverdict
    exact (hjson true verdict.toList).mpr hverdict
  exact ⟨(hsame true .json).1, (hsame true .json).2, hwritten.trans (@String.ofList_toList verdict)⟩

end CommandLine

end Stencil
