import Mathlib.Data.List.Basic
import ShellTree.CommandLine.Steps

/-!
# What failures read

A report has the outermost message on its first line, and below it the causes, numbered if there are several.
The failures of the steps that come before a tree is written are worded one by one here.
-/

namespace ShellTree.CommandLine

/-! ## Messages and causes -/

theorem hanging_eq_causeLines (front message : String) :
    front ++ hanging (spaces front.length) message = causeLines front message := by
  rw [hanging, causeLines, toList_spaces]

theorem causeText_only (message : String) : causeText false 0 message = causeLines "    " message :=
  hanging_eq_causeLines "    " message

theorem causeText_first (message : String) : causeText true 0 message = causeLines "    0: " message :=
  hanging_eq_causeLines "    0: " message

theorem causeText_second (message : String) : causeText true 1 message = causeLines "    1: " message :=
  hanging_eq_causeLines "    1: " message

theorem report_of_message {failure : Failure} {message : String} (messages : failure.messages = [message]) :
    failure.report = "Error: " ++ message ++ "\n" := by
  rw [Failure.report, messages]

theorem report_of_cause {failure : Failure} {message cause : String} (messages : failure.messages = [message, cause]) :
    failure.report = "Error: " ++ message ++ "\n\nCaused by:\n" ++ causeLines "    " cause ++ "\n" := by
  rw [Failure.report, messages, ← causeText_only]
  rfl

theorem report_of_causes {failure : Failure} {message first second : String}
    (messages : failure.messages = [message, first, second]) :
    failure.report = "Error: " ++ message ++ "\n\nCaused by:\n" ++ (causeLines "    0: " first ++ "\n" ++
      causeLines "    1: " second) ++ "\n" := by
  rw [Failure.report, messages, ← causeText_first, ← causeText_second]
  rfl

/-- A message without line breaks stands as it is. -/
theorem causeLines_of_unbroken {front message : String} (unbroken : '\n' ∉ message.toList) :
    causeLines front message = front ++ message := by
  have each : ∀ c ∈ message.toList, (if c = '\n' then '\n' :: List.replicate front.length ' ' else [c]) = [c] := by
    intro c member
    rw [if_neg]
    rintro rfl
    exact unbroken member
  rw [causeLines, List.flatMap_congr each, List.flatMap_singleton', String.ofList_toList]

/-- Of a document of the wrong shape only that is said. -/
theorem faultMessage_unfit (fault : Decode.Fault) : faultMessage (.unfit fault) = "TOML parse error" := rfl

/-! ## The failures of the steps -/

theorem report_settingsNotFound (path : String) : (Failure.settings (.notFound path)).report =
    "Error: ❌ Critical: config file " ++ Text.quoted path ++ " not found." ++ "\n" := by
  rw [report_of_message rfl]
  simp [← String.append_assoc]

theorem report_settingsUnreadable (path : String) (fault : ReadFault) :
    (Failure.settings (.unreadable path fault)).report =
      "Error: Failed to read " ++ path ++ "\n\nCaused by:\n" ++ causeLines "    " fault.message ++ "\n" := by
  rw [report_of_cause rfl]
  simp [← String.append_assoc]

theorem report_settingsInvalid (path : String) (fault : TextFault) :
    (Failure.settings (.invalid path fault)).report =
      "Error: Failed to parse " ++ path ++ "\n\nCaused by:\n" ++ causeLines "    " (faultMessage fault) ++ "\n" := by
  rw [report_of_cause rfl]
  simp [← String.append_assoc]

theorem report_unknownLineMode (text : String) : (Failure.settings (.unknownLineMode text)).report =
    "Error: Invalid SHPRINT_LINE_MODE value\n\nCaused by:\n" ++ causeLines "    "
      ("Unknown line mode '" ++ LineMode.normalize text ++ "' (expected 'single-line' or 'multi-line')") ++ "\n" := by
  rw [report_of_cause rfl]
  rfl

theorem report_treeNotFound (path : String) : (Failure.tree (.notFound path)).report =
    "Error: ❌ Tree document not found: " ++ Text.quoted path ++ "\n" := by
  rw [report_of_message rfl]
  simp [← String.append_assoc]

theorem report_treeUnreadable (path : String) (fault : ReadFault) : (Failure.tree (.unreadable path fault)).report =
    "Error: Failed to read tree document: " ++ path ++ "\n\nCaused by:\n" ++ causeLines "    " fault.message ++
      "\n" := by
  rw [report_of_cause rfl]
  simp [← String.append_assoc]

theorem report_treeInvalid (path : String) (fault : TextFault) : (Failure.tree (.invalid path fault)).report =
    "Error: Invalid tree document: " ++ path ++ "\n\nCaused by:\n" ++ "    0: Failed to parse tree document\n" ++
      causeLines "    1: " (faultMessage fault) ++ "\n" := by
  have first : causeLines "    0: " Script.parseMessage ++ "\n" = "    0: Failed to parse tree document\n" := by decide
  rw [report_of_causes rfl, first]
  simp [← String.append_assoc]

end ShellTree.CommandLine
