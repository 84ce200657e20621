import GrammarChart.Proofs.Emissions
import GrammarChart.Proofs.Tool.TimeLimits
import GrammarChart.Proofs.Tool.Words

/-!
# Answers to renderings

A rendering is answered with the path of the picture or with a reason, unless something stands in
the way that is no answer but a fault. `Obstacle` lists what that can be, from the command line to
the output of the tool, and `answerTo_iff` says that nothing else can: a rendering faults exactly
with the obstacles to it, and a picture is drawn exactly when a tool that meets none of them ends
well.
-/

set_option autoImplicit false

namespace GrammarChart.Tool

/-- A tool that takes the given time ends within the seconds, which are a limit. -/
structure InTime (seconds : Int) (milliseconds : Nat) : Prop where
  kept : TimeLimit.problem? seconds = none
  short : (TimeLimit.upTo (.ofInt seconds)).isExceededBy (some milliseconds) = false

/-- What a tool wrote is text. -/
def IsText (bytes : List UInt8) : Prop :=
  ∃ text, Text.Utf8.decode bytes = .ok text

/-- The way in which a tool of a name ends is no answer but a fault. -/
inductive Ending.Stops (seconds : Int) (name : String) : Ending → Fault → Prop where
  /-- The system does not start the tool, although it is there. -/
  | refused {problem : FileProblem} (there : problem ≠ .notFound) :
      Stops seconds name (.refused problem) (.file problem name)
  /-- The seconds are no limit, which shows once the tool is started. -/
  | noLimit {ending : Ending} {problem : TimeProblem} (started : ∀ refusal, ending ≠ .refused refusal)
      (unkept : TimeLimit.problem? seconds = some problem) :
      Stops seconds name ending (.badTime problem)
  /-- The tool wrote what is no text. -/
  | undecodable {status : Int} {output errors : List UInt8} {milliseconds : Nat}
      {fault : Text.Utf8.Fault} (inTime : InTime seconds milliseconds)
      (unread : Text.Utf8.decode output = .error fault ∨
        IsText output ∧ Text.Utf8.decode errors = .error fault) :
      Stops seconds name (.finished status output errors milliseconds) (.undecodable fault)

/-- A tool ends well: in time, with the status for it, and after it wrote text. -/
inductive Ending.IsWell (seconds : Int) : Ending → Prop where
  | finished {output errors : List UInt8} {milliseconds : Nat} (inTime : InTime seconds milliseconds)
      (shown : IsText output) (told : IsText errors) :
      IsWell seconds (.finished 0 output errors milliseconds)

/-- The words by which a picture is asked for: those of the command, the format and the path. A
null character has no place in any of them. -/
structure Asks (command path format : String) (words : List String) : Prop where
  whole : (standAtEnd command).missing? = none
  clean : '\x00' ∉ command.toList ∧ '\x00' ∉ path.toList
  given : ∃ given, splitWords command = .ok given ∧ words = given ++ ["-t" ++ format, path]

section Renderings

variable (run : Runner) (tree : FileTree) (path format command : String) (seconds : Int)

/-- The answer to a rendering of the diagram at a path. -/
def answerTo : Except Fault Answer :=
  (render run tree (.str path) (.str format) (.str command) (.int seconds)).answer

/-- What keeps a rendering in a known format from being answered, with the fault that it ends
with. -/
inductive Obstacle : Fault → Prop where
  /-- The command line ends in a quotation or behind an escape. -/
  | unclosed {fault : Fault} (missing : (standAtEnd command).missing? = some fault) : Obstacle fault
  | nullCharacter (whole : (standAtEnd command).missing? = none)
      (present : '\x00' ∈ command.toList ∨ '\x00' ∈ path.toList) : Obstacle .nullCharacter
  | stopped {words : List String} {fault : Fault} (asked : Asks command path format words)
      (stops : (run tree words).ending.Stops seconds (words.headD "") fault) : Obstacle fault

/-- A tool is asked for the picture and ends well. -/
def IsDrawn : Prop :=
  ∃ words, Asks command path format words ∧ (run tree words).ending.IsWell seconds

end Renderings

section Endings

variable {path : String} {format name : String} {seconds : Int} {ending : Ending} {fault : Fault}
  {picture : FilePath}

/-- A tool that is started has a limit when the seconds are one. -/
theorem ofJson_int (seconds : Int) : TimeLimit.ofJson (.int seconds) =
    (TimeLimit.problem? seconds).elim (.ok (.upTo (.ofInt seconds))) fun problem =>
      .error (.badTime problem) :=
  TimeLimit.ofInt_eq seconds

/-- Text that a tool wrote is passed on with its line ends unified. -/
theorem exists_outputText {bytes : List UInt8} (text : IsText bytes) :
    ∃ shown, outputText bytes = .ok shown := by
  obtain ⟨read, decoded⟩ := text
  exact ⟨Text.unifyLineEnds read, by rw [outputText, decoded]⟩

/-- What is no text faults. -/
theorem outputText_of_error {bytes : List UInt8} {fault : Text.Utf8.Fault}
    (unread : Text.Utf8.decode bytes = .error fault) :
    outputText bytes = .error (.undecodable fault) := by
  rw [outputText, unread]

/-- What a tool that ends in time answers. -/
theorem answerOf_inTime {status : Int} {output errors : List UInt8} {milliseconds : Nat}
    (inTime : InTime seconds milliseconds) :
    answerOf (.str path) (.str format) name (.int seconds)
        (.finished status output errors milliseconds) = (do
      let output ← outputText output
      let errors ← outputText errors
      if status ≠ 0 then return .failed ("PlantUML failed: " ++ failureReason output errors)
      return .drawn (← renderedPath (.ofText path) (.str format))) := by
  rw [answerOf, ofJson_int, inTime.kept, Option.elim_none, ok_bind, inTime.short]
  rfl

/-- An ending that stops a rendering is answered with the fault. -/
theorem answerOf_of_stops (stops : ending.Stops seconds name fault) :
    answerOf (.str path) (.str format) name (.int seconds) ending = .error fault := by
  cases stops with
  | @refused problem there =>
    cases problem with
    | notFound => exact absurd rfl there
    | _ => rfl
  | @noLimit _ problem started unkept =>
    cases ending with
    | refused refusal => exact absurd rfl (started refusal)
    | endless => rw [answerOf, ofJson_int, unkept, Option.elim_some]; rfl
    | finished status output errors milliseconds =>
      rw [answerOf, ofJson_int, unkept, Option.elim_some]
      rfl
  | undecodable inTime unread =>
    rw [answerOf_inTime inTime]
    rcases unread with bad | ⟨good, bad⟩
    · rw [outputText_of_error bad, error_bind]
    · obtain ⟨shown, read⟩ := exists_outputText good
      rw [read, ok_bind, outputText_of_error bad, error_bind]

/-- An ending that is well is answered with the picture. -/
theorem answerOf_of_isWell (well : ending.IsWell seconds)
    (suffixed : (FilePath.ofText path).withSuffix ("." ++ format) = .ok picture) :
    answerOf (.str path) (.str format) name (.int seconds) ending = .ok (.drawn picture) := by
  cases well with
  | finished inTime output errors =>
    obtain ⟨shown, read⟩ := exists_outputText output
    obtain ⟨told, heard⟩ := exists_outputText errors
    have drawn : renderedPath (.ofText path) (.str format) = .ok picture := by
      rw [renderedPath, Json.display_str, suffixed]
    rw [answerOf_inTime inTime, read, ok_bind, heard, ok_bind, drawn]
    rfl

/-- A tool that ends badly in time is answered with the reason. -/
theorem answerOf_of_status {status : Int} {output errors : List UInt8} {milliseconds : Nat}
    (inTime : InTime seconds milliseconds) (shown : IsText output) (told : IsText errors)
    (bad : status ≠ 0) : ∃ reason, answerOf (.str path) (.str format) name (.int seconds)
      (.finished status output errors milliseconds) = .ok (.failed reason) := by
  obtain ⟨shown, read⟩ := exists_outputText shown
  obtain ⟨told, heard⟩ := exists_outputText told
  rw [answerOf_inTime inTime, read, ok_bind, heard, ok_bind, if_pos bad]
  exact ⟨_, rfl⟩

/-- A tool that ends too late is answered with the seconds. -/
theorem answerOf_of_late {status : Int} {output errors : List UInt8} {milliseconds : Nat}
    (kept : TimeLimit.problem? seconds = none)
    (late : (TimeLimit.upTo (.ofInt seconds)).isExceededBy (some milliseconds) = true) :
    answerOf (.str path) (.str format) name (.int seconds)
      (.finished status output errors milliseconds) = .ok (tooLong (.int seconds)) := by
  rw [answerOf, ofJson_int, kept, Option.elim_none, ok_bind, late]
  rfl

/-- A tool that never ends is answered with the seconds. -/
theorem answerOf_endless (kept : TimeLimit.problem? seconds = none) :
    answerOf (.str path) (.str format) name (.int seconds) .endless =
      .ok (tooLong (.int seconds)) := by
  rw [answerOf, ofJson_int, kept, Option.elim_none]
  rfl

/-- Every other ending is answered with a reason. -/
theorem answerOf_cases (path format name : String) (seconds : Int) (ending : Ending) :
    (∃ fault, ending.Stops seconds name fault) ∨ ending.IsWell seconds ∨
      ∃ reason, answerOf (.str path) (.str format) name (.int seconds) ending =
        .ok (.failed reason) := by
  cases ending with
  | refused problem =>
    by_cases missing : problem = .notFound
    · subst missing
      exact .inr (.inr ⟨_, rfl⟩)
    · exact .inl ⟨_, .refused missing⟩
  | endless =>
    cases limit : TimeLimit.problem? seconds with
    | some problem => exact .inl ⟨_, .noLimit nofun limit⟩
    | none => exact .inr (.inr ⟨_, answerOf_endless limit⟩)
  | finished status output errors milliseconds =>
    cases limit : TimeLimit.problem? seconds with
    | some problem => exact .inl ⟨_, .noLimit nofun limit⟩
    | none =>
      cases late : (TimeLimit.upTo (.ofInt seconds)).isExceededBy (some milliseconds) with
      | true => exact .inr (.inr ⟨_, answerOf_of_late limit late⟩)
      | false =>
        have inTime : InTime seconds milliseconds := ⟨limit, late⟩
        cases read : Text.Utf8.decode output with
        | error fault => exact .inl ⟨_, .undecodable inTime (.inl read)⟩
        | ok shown =>
          cases heard : Text.Utf8.decode errors with
          | error fault => exact .inl ⟨_, .undecodable inTime (.inr ⟨⟨shown, read⟩, heard⟩)⟩
          | ok told =>
            by_cases good : status = 0
            · subst good
              exact .inr (.inl (.finished inTime ⟨shown, read⟩ ⟨told, heard⟩))
            · exact .inr (.inr (answerOf_of_status inTime ⟨shown, read⟩ ⟨told, heard⟩ good))

end Endings

section Words

variable {run : Runner} {tree : FileTree} {path format command : String} {seconds : Int}

/-- A text is one of the formats when it is in their list. -/
theorem isFormat_str : isFormat (.str format) = decide (format ∈ formats) := by
  rw [Bool.eq_iff_iff, decide_eq_true_iff]
  simp [isFormat, formats, Json.isText]

/-- No format has a null character. -/
theorem not_mem_format (supported : format ∈ formats) : '\x00' ∉ ("-t" ++ format).toList := by
  simp only [formats, List.mem_cons, List.not_mem_nil, or_false] at supported
  obtain rfl | rfl | rfl := supported <;> decide

/-- The words that a picture is drawn by hold a null character when the command or the path does. -/
theorem contains_null_iff (supported : format ∈ formats) {given : List String}
    (isGiven : splitWords command = .ok given) (path : String) :
    (given ++ ["-t" ++ format, path]).any (·.toList.contains '\x00') = true ↔
      '\x00' ∈ command.toList ∨ '\x00' ∈ path.toList := by
  have split := splitsAs_splitWords command
  cases missing : (standAtEnd command).missing? with
  | some fault =>
    rw [missing, isGiven] at split
    cases split
  | none =>
    rw [missing] at split
    obtain ⟨words, isWords, inside⟩ := split
    rw [isGiven, Except.ok.injEq] at isWords
    subst isWords
    rw [← inside '\x00' rfl, List.any_append]
    simp only [List.any_cons, List.any_nil, Bool.or_false, Bool.or_eq_true, List.any_eq_true,
      List.contains_iff_mem, not_mem_format supported, false_or]

/-- A rendering starts with the words of the command line. -/
theorem answerTo_eq (supported : format ∈ formats) (run : Runner) (tree : FileTree)
    (path command : String) (seconds : Int) : answerTo run tree path format command seconds = (do
      let given ← splitWords command
      let words := given ++ ["-t" ++ format, path]
      if words.any (·.toList.contains '\x00') then throw .nullCharacter
      answerOf (.str path) (.str format) (words.headD "") (.int seconds)
        (run tree words).ending) := by
  have known : isFormat (.str format) = true := by rwa [isFormat_str, decide_eq_true_iff]
  have unfolded : renderingWords (.str path) (.str format) (.str command) = (do
      let given ← splitWords command
      let words := given ++ ["-t" ++ format, path]
      if words.any (·.toList.contains '\x00') then throw .nullCharacter
      return words) := rfl
  rw [answerTo, render, known, unfolded]
  cases splitWords command with
  | error fault => rfl
  | ok given =>
    rw [ok_bind, ok_bind]
    dsimp only
    cases (given ++ ["-t" ++ format, path]).any (·.toList.contains '\x00') <;> rfl

/-- An unclosed command line is a fault. -/
theorem answerTo_of_missing (supported : format ∈ formats) {fault : Fault}
    (missing : (standAtEnd command).missing? = some fault) :
    answerTo run tree path format command seconds = .error fault := by
  have split := splitsAs_splitWords command
  rw [missing] at split
  rw [answerTo_eq supported, split, error_bind]

/-- A null character is a fault. -/
theorem answerTo_of_null (supported : format ∈ formats)
    (whole : (standAtEnd command).missing? = none)
    (present : '\x00' ∈ command.toList ∨ '\x00' ∈ path.toList) :
    answerTo run tree path format command seconds = .error .nullCharacter := by
  have split := splitsAs_splitWords command
  rw [whole] at split
  obtain ⟨given, isGiven, -⟩ := split
  rw [answerTo_eq supported, isGiven, ok_bind]
  dsimp only
  rw [if_pos ((contains_null_iff supported isGiven path).mpr present)]
  rfl

/-- What is asked for is answered for the way in which it ends. -/
theorem answerTo_of_asks (supported : format ∈ formats) {words : List String}
    (asked : Asks command path format words) : answerTo run tree path format command seconds =
      answerOf (.str path) (.str format) (words.headD "") (.int seconds)
        (run tree words).ending := by
  obtain ⟨-, clean, given, isGiven, rfl⟩ := asked
  rw [answerTo_eq supported, isGiven, ok_bind]
  dsimp only
  rw [if_neg ((contains_null_iff supported isGiven path).not.mpr (not_or.mpr clean))]

/-- A picture can be asked for by a command line that is closed, without null characters. -/
theorem asks_cases (command path format : String) :
    (∃ fault, (standAtEnd command).missing? = some fault) ∨
    ((standAtEnd command).missing? = none ∧ ('\x00' ∈ command.toList ∨ '\x00' ∈ path.toList)) ∨
    ∃ words, Asks command path format words := by
  have split := splitsAs_splitWords command
  cases missing : (standAtEnd command).missing? with
  | some fault => exact .inl ⟨fault, rfl⟩
  | none =>
    rw [missing] at split
    obtain ⟨given, isGiven, -⟩ := split
    by_cases present : '\x00' ∈ command.toList ∨ '\x00' ∈ path.toList
    · exact .inr (.inl ⟨rfl, present⟩)
    · exact .inr (.inr ⟨_, missing, not_or.mp present, given, isGiven, rfl⟩)

/-- A path with a name has a version with the suffix of a format. -/
theorem exists_withSuffix (named : (FilePath.ofText path).name ≠ "") (supported : format ∈ formats) :
    ∃ picture, (FilePath.ofText path).withSuffix ("." ++ format) = .ok picture := by
  have parts : (FilePath.ofText path).parts ≠ [] := by
    intro empty
    rw [FilePath.name, empty] at named
    exact named rfl
  have good : ("." ++ format).toList.head? = some '.' ∧ "." ++ format ≠ "." ∧
      '/' ∉ ("." ++ format).toList := by
    simp only [formats, List.mem_cons, List.not_mem_nil, or_false] at supported
    obtain rfl | rfl | rfl := supported <;> decide
  rw [FilePath.withSuffix, if_neg (not_not.mpr (.inr good)), if_neg parts]
  exact ⟨_, rfl⟩

/-- A rendering faults with what stands in its way. -/
theorem answerTo_of_obstacle (supported : format ∈ formats) {fault : Fault}
    (obstacle : Obstacle run tree path format command seconds fault) :
    answerTo run tree path format command seconds = .error fault := by
  cases obstacle with
  | unclosed missing => exact answerTo_of_missing supported missing
  | nullCharacter whole present => exact answerTo_of_null supported whole present
  | stopped asked stops => rw [answerTo_of_asks supported asked, answerOf_of_stops stops]

/-- A picture that is drawn is the answer. -/
theorem answerTo_of_isDrawn (supported : format ∈ formats) {picture : FilePath}
    (suffixed : (FilePath.ofText path).withSuffix ("." ++ format) = .ok picture)
    (drawn : IsDrawn run tree path format command seconds) :
    answerTo run tree path format command seconds = .ok (.drawn picture) := by
  obtain ⟨words, asked, well⟩ := drawn
  rw [answerTo_of_asks supported asked, answerOf_of_isWell well suffixed]

/-- An unknown format is answered with the reason. -/
theorem answerTo_of_not_mem (unsupported : format ∉ formats) :
    answerTo run tree path format command seconds =
      .ok (.failed ("Unsupported output format: " ++ format)) := by
  have unknown : isFormat (.str format) = false := by rwa [isFormat_str, decide_eq_false_iff_not]
  rw [answerTo, render, unknown]
  rfl

/-- A rendering faults with an obstacle, or it is answered with the picture that is drawn, or with a
reason. -/
theorem answerTo_cases (named : (FilePath.ofText path).name ≠ "") (run : Runner) (tree : FileTree)
    (format command : String) (seconds : Int) :
    (∃ fault, format ∈ formats ∧ Obstacle run tree path format command seconds fault ∧
      answerTo run tree path format command seconds = .error fault) ∨
    (∃ picture, format ∈ formats ∧ IsDrawn run tree path format command seconds ∧
      (FilePath.ofText path).withSuffix ("." ++ format) = .ok picture ∧
      answerTo run tree path format command seconds = .ok (.drawn picture)) ∨
    ∃ reason, answerTo run tree path format command seconds = .ok (.failed reason) := by
  by_cases supported : format ∈ formats
  · have stopped : ∀ fault, Obstacle run tree path format command seconds fault →
        ∃ fault, format ∈ formats ∧ Obstacle run tree path format command seconds fault ∧
          answerTo run tree path format command seconds = .error fault :=
      fun fault obstacle => ⟨fault, supported, obstacle, answerTo_of_obstacle supported obstacle⟩
    rcases asks_cases command path format with ⟨fault, missing⟩ | ⟨whole, present⟩ | ⟨words, asked⟩
    · exact .inl (stopped fault (.unclosed missing))
    · exact .inl (stopped _ (.nullCharacter whole present))
    · rcases answerOf_cases path format (words.headD "") seconds (run tree words).ending with
        ⟨fault, stops⟩ | well | ⟨reason, failed⟩
      · exact .inl (stopped fault (.stopped asked stops))
      · obtain ⟨picture, suffixed⟩ := exists_withSuffix named supported
        have drawn : IsDrawn run tree path format command seconds := ⟨words, asked, well⟩
        exact .inr (.inl ⟨picture, supported, drawn, suffixed,
          answerTo_of_isDrawn supported suffixed drawn⟩)
      · exact .inr (.inr ⟨reason, (answerTo_of_asks supported asked).trans failed⟩)
  · exact .inr (.inr ⟨_, answerTo_of_not_mem supported⟩)

end Words

/-- The answer to a rendering of a diagram whose path has a name, whatever the system makes of the
command: an unknown format is refused with a reason; in a known one, the rendering faults exactly
with what stands in its way, and it gives a picture exactly when a tool ends well, the one at the
path with the suffix of the format. -/
theorem answerTo_iff (run : Runner) (tree : FileTree) (path format command : String) (seconds : Int)
    (named : (FilePath.ofText path).name ≠ "") :
    (format ∉ formats → answerTo run tree path format command seconds =
      .ok (.failed ("Unsupported output format: " ++ format))) ∧
    (∀ fault, answerTo run tree path format command seconds = .error fault ↔
      format ∈ formats ∧ Obstacle run tree path format command seconds fault) ∧
    (∀ picture, answerTo run tree path format command seconds = .ok (.drawn picture) ↔
      format ∈ formats ∧ IsDrawn run tree path format command seconds ∧
      (FilePath.ofText path).withSuffix ("." ++ format) = .ok picture) := by
  have answers := answerTo_cases named run tree format command seconds
  refine ⟨answerTo_of_not_mem, ?_, ?_⟩
  · intro fault
    constructor
    · intro faulty
      obtain ⟨other, supported, obstacle, answer⟩ | ⟨picture, -, -, -, answer⟩ | ⟨reason, answer⟩ :=
        answers
      all_goals
        rw [answer] at faulty
        cases faulty
      exact ⟨supported, obstacle⟩
    · rintro ⟨supported, obstacle⟩
      exact answerTo_of_obstacle supported obstacle
  · intro picture
    constructor
    · intro answered
      obtain ⟨fault, -, -, answer⟩ | ⟨other, supported, drawn, suffixed, answer⟩ |
        ⟨reason, answer⟩ := answers
      all_goals
        rw [answer] at answered
        cases answered
      exact ⟨supported, drawn, suffixed⟩
    · rintro ⟨supported, drawn, suffixed⟩
      exact answerTo_of_isDrawn supported suffixed drawn

/-- A tool that must not be started is a fault and no reason. -/
theorem answerTo_notPermitted :
    (FilePath.ofText "d.pu").name ≠ "" ∧
    answerTo (fun tree _ => ⟨tree, .refused .permissionDenied⟩) ⟨[], []⟩ "d.pu" "png" "./tool" 60 =
      .error (.file .permissionDenied "./tool") := by
  have named : (FilePath.ofText "d.pu").name ≠ "" := by decide
  have asked : Asks "./tool" "d.pu" "png" ["./tool", "-tpng", "d.pu"] :=
    ⟨rfl, by decide, ["./tool"], rfl, by decide⟩
  refine ⟨named, ((answerTo_iff _ _ "d.pu" "png" "./tool" 60 named).2.1 _).mpr ⟨by decide, ?_⟩⟩
  exact .stopped asked (.refused (by decide))

end GrammarChart.Tool
