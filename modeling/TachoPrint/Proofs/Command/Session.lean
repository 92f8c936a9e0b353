import TachoPrint.Proofs.Gcode.Lines
import TachoPrint.Proofs.Gcode.Numbers
import TachoPrint.Proofs.Machine.Simulation
import TachoPrint.Proofs.Setup.RoundTrip

/-!
# What comes of a session

A session does one of five things, and what decides between them comes in an order of its own:
the setup has to load, a wish to see it comes before everything else, the program has to parse
to its last line before anything is done with it, and hardware comes last.

## Main definitions

* `Options.Accepted` — what every accepted command line fulfils.
* `Gcode.Legible` — every line of a program can be read.
* `Options.delay` — what carries out the delays of a dry run.

## Main results

* `Request.accepted_of_ofArguments` — accepted options go together.
* `Session.pieces_dumpText` — **a dump has one line for each instruction.**
* `Gcode.legible_iff` — a program is read when every line of it can be.
* `printJob_run`, `dryRun_run` — homing first, and then the program.
* `Session.run_outcome` — **what comes of a session.**
-/

namespace TachoPrint

open TachoPrint.Action

/-! ### Accepted command lines -/

/-- There is something to do, and `fast` is said of dry runs only. -/
structure Options.Accepted (o : Options) : Prop where
  program : o.printSetup = false → o.program.isSome = true
  fast : o.fast = true → o.dryRun = true

theorem Options.accepted_of_check {o o' : Options} (h : o.check = .ok o') : o'.Accepted := by
  unfold check at h
  split at h
  · cases h
  · next hprogram =>
    split at h
    · cases h
    · next hfast =>
      obtain rfl := Except.ok.inj h
      constructor
      · intro hprint
        simpa [hprint, ← Option.isSome_iff_ne_none] using hprogram
      · intro hf
        simpa [hf] using hfast

namespace Request

theorem accepted_of_check {o o' : Options} (h : o.check.map Request.run = .ok (.run o')) :
    o'.Accepted := by
  cases hcheck : o.check with
  | error e =>
    rw [hcheck] at h
    cases h
  | ok o'' =>
    rw [hcheck] at h
    obtain rfl := Request.run.inj (Except.ok.inj h)
    exact Options.accepted_of_check hcheck

/-- The version and the help text are no runs. -/
theorem longFlag_ne_run {o o' : Options} {name : String} :
    longFlag o name ≠ .ok (.inr (.run o')) := by
  intro h
  unfold longFlag at h
  split at h
  · cases h
  · cases h
  · cases hflag : o.flag name with
    | error e =>
      rw [hflag] at h
      cases h
    | ok o'' =>
      rw [hflag] at h
      cases h

theorem accepted_of_collect {o o' : Options} {arguments : List String}
    (h : collect o arguments = .ok (.run o')) : o'.Accepted := by
  -- on the arguments: each changes the options or ends the line, and a run ends with the check
  fun_induction collect o arguments with
  | case1 o => exact accepted_of_check h
  | case2 o =>
    obtain ⟨o₁, -, h⟩ := bind_eq_ok_iff.mp h
    obtain ⟨o₂, hcheck, hend⟩ := bind_eq_ok_iff.mp h
    obtain rfl := Request.run.inj (Except.ok.inj hend)
    exact Options.accepted_of_check hcheck
  | case3 _ _ _ _ _ ih =>
    obtain ⟨o₁, -, h⟩ := bind_eq_ok_iff.mp h
    exact ih o₁ h
  | case4 _ _ _ _ _ ih =>
    obtain ⟨o₁, -, h⟩ := bind_eq_ok_iff.mp h
    exact ih o₁ h
  | case5 _ _ _ _ _ _ ih =>
    obtain ⟨o₁, -, h⟩ := bind_eq_ok_iff.mp h
    exact ih o₁ h
  | case8 =>
    obtain ⟨_, -, h⟩ := bind_eq_ok_iff.mp h
    cases h
  | case10 _ _ _ _ _ _ _ hflag =>
    obtain rfl := Except.ok.inj h
    exact absurd hflag longFlag_ne_run
  | case11 _ _ _ _ _ _ _ _ ih => exact ih h
  | case14 _ _ _ _ _ _ _ ih =>
    obtain ⟨o₁, -, h⟩ := bind_eq_ok_iff.mp h
    exact ih o₁ h
  | case15 _ _ _ _ _ _ _ _ ih =>
    obtain ⟨o₁, -, h⟩ := bind_eq_ok_iff.mp h
    exact ih o₁ h
  | case6 | case7 | case9 | case12 | case13 | case16 | case17 | case18 => cases h

/-- **Accepted options go together.** -/
theorem accepted_of_ofArguments {arguments : List String} {o : Options}
    (h : ofArguments arguments = .ok (.run o)) : o.Accepted := accepted_of_collect h

end Request

/-! ### The text of a program -/

/-- The text has no line end in it. -/
def OneLine (s : String) : Prop := '\n' ∉ s.toList

instance (s : String) : Decidable (OneLine s) := inferInstanceAs (Decidable (¬_))

theorem OneLine.append {s t : String} (hs : OneLine s) (ht : OneLine t) : OneLine (s ++ t) := by
  unfold OneLine at hs ht ⊢
  rw [String.toList_append, List.mem_append]
  intro h
  exact h.elim hs ht

theorem oneLine_intercalate {separator : String} (hs : OneLine separator) {texts : List String}
    (h : ∀ t ∈ texts, OneLine t) : OneLine (separator.intercalate texts) := by
  induction texts with
  | nil => exact List.not_mem_nil
  | cons t texts ih =>
    obtain ⟨ht, htexts⟩ := List.forall_mem_cons.mp h
    cases texts with
    | nil => simpa using ht
    | cons u texts =>
      rw [String.intercalate_cons_cons]
      exact (ht.append hs).append (ih htexts)

namespace Gcode

theorem oneLine_numberJson (a : Binary64) : OneLine (numberJson a) := by
  cases a with
  | nan => decide
  | inf negative => cases negative <;> decide
  | finite negative n hn =>
    change '\n' ∉ (Layout.json.text (.finite negative n hn)).toList
    rw [Layout.text, String.toList_ofList]
    intro hfeed
    have hmark : ∀ c ∈ Layout.json.wholeMark, Decimal.IsNumeral c := by
      intro c hc
      rcases List.mem_cons.mp hc with rfl | hc
      · exact .inr (.inr (.inr (.inl rfl)))
      · obtain rfl := List.mem_singleton.mp hc
        exact .inl rfl
    rcases Decimal.isNumeral_of_mem_chars hmark hfeed with h | h | h | h | h <;> revert h <;> decide

theorem oneLine_optionJson (o : Option Binary64) : OneLine (optionJson o) := by
  cases o with
  | none => decide
  | some a => exact oneLine_numberJson a

theorem oneLine_boolJson (b : Bool) : OneLine (boolJson b) := by cases b <;> decide

theorem oneLine_nameJson {s : String} (hs : OneLine s) : OneLine (nameJson s) :=
  have hquote : OneLine "\"" := by decide
  (hquote.append hs).append hquote

theorem oneLine_toString (n : Nat) : OneLine (toString n) := by
  rw [OneLine, Nat.toString_eq_ofList_toDigits, String.toList_ofList]
  intro hfeed
  have hdigit := Decimal.isDigit_of_mem_digitChars hfeed
  revert hdigit
  decide

/-- A member with no line end in its name and none in its value. -/
def OneLineMember (m : String × String) : Prop := OneLine m.1 ∧ OneLine m.2

theorem oneLineMember {name text : String} (hname : OneLine name) (htext : OneLine text) :
    OneLineMember (name, text) := ⟨hname, htext⟩

theorem oneLine_of_mem_parameterMembers {i : Instruction} {m : String × String}
    (hm : m ∈ parameterMembers i) : OneLineMember m := by
  cases i with
  | move move =>
    simp only [parameterMembers, List.mem_cons, List.not_mem_nil, or_false] at hm
    rcases hm with rfl | rfl | rfl | rfl | rfl
    all_goals exact oneLineMember (by decide) (oneLine_optionJson _)
  | pause micros =>
    obtain rfl := List.mem_singleton.mp hm
    exact oneLineMember (by decide) (oneLine_toString _)
  | setPositioning mode =>
    obtain rfl := List.mem_singleton.mp hm
    exact oneLineMember (by decide) (oneLine_nameJson (by cases mode <;> decide))
  | setPosition c =>
    simp only [parameterMembers, List.mem_cons, List.not_mem_nil, or_false] at hm
    rcases hm with rfl | rfl | rfl | rfl
    all_goals exact oneLineMember (by decide) (oneLine_optionJson _)
  | home axes | release axes =>
    simp only [parameterMembers, axesMembers, List.mem_cons, List.not_mem_nil, or_false] at hm
    rcases hm with rfl | rfl | rfl
    all_goals exact oneLineMember (by decide) (oneLine_boolJson _)

theorem oneLine_opName (i : Instruction) : OneLine (opName i) := by
  cases i <;> simp only [opName] <;> decide

/-- **The text of an instruction is one line.** -/
theorem oneLine_json (i : Instruction) : OneLine i.json := by
  have hop : OneLineMember ("op", nameJson (opName i)) :=
    oneLineMember (by decide) (oneLine_nameJson (oneLine_opName i))
  have hmember : ∀ m ∈ ("op", nameJson (opName i)) :: parameterMembers i, OneLineMember m :=
    List.forall_mem_cons.mpr ⟨hop, fun m hm => oneLine_of_mem_parameterMembers hm⟩
  have hopen : OneLine "\x7b" := by decide
  have hclose : OneLine "\x7d" := by decide
  have hcolon : OneLine ":" := by decide
  refine (hopen.append (oneLine_intercalate (by decide) ?_)).append hclose
  intro t ht
  obtain ⟨m, hm, rfl⟩ := List.mem_map.mp ht
  obtain ⟨hfirst, hsecond⟩ := hmember m hm
  exact ((oneLine_nameJson hfirst).append hcolon).append hsecond

end Gcode

/-- **A dump has one line for each instruction**, and nothing behind the last. -/
theorem Session.pieces_dumpText (program : List Instruction) :
    pieces '\n' (dumpText program).toList = program.map (·.json.toList) ++ [[]] := by
  unfold dumpText
  induction program with
  | nil => rfl
  | cons i program ih =>
    have hline : (i.json ++ "\n").toList = i.json.toList ++ ['\n'] := by simp
    rw [List.map_cons, String.join_cons, String.toList_append, hline, List.append_assoc,
      List.singleton_append, pieces_append_mark, pieces_of_not_mem (Gcode.oneLine_json i), ih]
    rfl

/-! ### Programs that are read -/

/-- The file can be read, and so can each of its lines. -/
def Gcode.Legible : FileContent → Prop
  | .ok bytes => ∀ line ∈ splitLines bytes, Readable line
  | .error _ => False

theorem Gcode.readable_of_instructionsFrom {read program : List Instruction} {n : Nat}
    {lines : List (List UInt8)} (h : instructionsFrom read n lines = .ok program) :
    ∀ line ∈ lines, Readable line := by
  induction lines generalizing read n with
  | nil => exact fun _ hl => nomatch hl
  | cons line lines ih =>
    simp only [instructionsFrom] at h
    cases hline : instructionOfBytes? n line with
    | error e =>
      rw [hline] at h
      cases h
    | ok found =>
      rw [hline] at h
      have hreadable : Readable line := readable_iff.mpr ⟨found, hline⟩
      cases found with
      | none => exact List.forall_mem_cons.mpr ⟨hreadable, ih h⟩
      | some i => exact List.forall_mem_cons.mpr ⟨hreadable, ih h⟩

/-- **A program is read when every line of it can be.** -/
theorem Gcode.legible_iff {path : String} {content : FileContent} :
    Legible content ↔ ∃ program, Instruction.ofFile path content = .ok program := by
  cases content with
  | error cause =>
    have hnone : ∀ program, Instruction.ofFile path (.error cause) ≠ .ok program := by
      intro program h
      cases cause <;> cases h
    exact ⟨False.elim, fun ⟨program, h⟩ => hnone program h⟩
  | ok bytes =>
    change (∀ line ∈ splitLines bytes, Readable line) ↔
      ∃ program, Instruction.ofBytes bytes = .ok program
    constructor
    · intro hall
      cases hread : Instruction.ofBytes bytes with
      | ok program => exact ⟨program, rfl⟩
      | error e =>
        obtain ⟨before, line, after, hlines, -, hrefused⟩ := ofBytes_eq_error_iff.mp hread
        have hline : line ∈ splitLines bytes := by simp [hlines]
        obtain ⟨found, hfound⟩ := (readable_iff (n := before.length + 1)).mp (hall line hline)
        rw [refused_iff.mp hrefused] at hfound
        cases hfound
    · rintro ⟨program, hread⟩
      exact readable_of_instructionsFrom hread

/-! ### Dry runs -/

theorem Outcome.mapError_eq_done_iff {ε ε' α : Type} {f : ε → ε'} {x : Outcome ε α} {a : α} :
    x.mapError f = .done a ↔ x = .done a := by
  cases x with
  | done b => simp [mapError]
  | failed e => simp [mapError]
  | crashed => simp [mapError]

section

variable (program : List Instruction) (skip : Bool) (h : Head)

/-- The head is ready for a program: homing it is skipped, or succeeds. -/
def Head.isReady : Bool := skip || (calibrate h).ending.isDone

/-- The head that a program starts with. -/
def Head.prepared : Head := if skip then h else (calibrate h).state

/-- The events of homing, unless it is skipped. -/
def Head.homingEvents : List Event := if skip then [] else (calibrate h).trace

/-- **Homing comes first, and then the program**, if homing did not fail. -/
theorem printJob_run :
    (printJob program skip h).trace = h.homingEvents skip ++
        (if h.isReady skip then (Head.runProgram program (h.prepared skip)).trace else []) ∧
      ((printJob program skip h).ending = .done () ↔
        h.isReady skip = true ∧ (Head.runProgram program (h.prepared skip)).ending = .done ()) := by
  unfold Head.isReady Head.prepared Head.homingEvents
  cases skip with
  | true =>
    have hrun : printJob program true h = (Head.runProgram program).mapError .printing h := rfl
    rw [hrun]
    refine ⟨rfl, ?_⟩
    change Outcome.mapError _ _ = _ ↔ _
    simp [Outcome.mapError_eq_done_iff]
  | false =>
    have hrun : printJob program false h = (Head.calibrate.mapError SessionError.homing >>= fun _ =>
        (Head.runProgram program).mapError .printing) h := rfl
    have hhoming : (Head.calibrate.mapError SessionError.homing) h =
        ⟨(Head.calibrate h).trace, (Head.calibrate h).state,
          (Head.calibrate h).ending.mapError .homing⟩ := rfl
    rw [hrun]
    cases hend : (Head.calibrate h).ending with
    | done u =>
      rw [hend] at hhoming
      rw [bind_of_done (congrArg Run.ending hhoming), hhoming]
      refine ⟨rfl, ?_⟩
      change Outcome.mapError _ _ = _ ↔ _
      simp [Outcome.mapError_eq_done_iff, Outcome.isDone]
    | failed e =>
      rw [hend] at hhoming
      rw [bind_of_failed (congrArg Run.ending hhoming), hhoming]
      simp [Outcome.isDone]
    | crashed =>
      rw [hend] at hhoming
      rw [bind_of_crashed (congrArg Run.ending hhoming), hhoming]
      simp [Outcome.isDone]

end

/-! ### Delays -/

namespace Delay

@[simp] theorem keep_real (t : List Event) : real.keep t = t := rfl

/-- Skipping the delays leaves no more than carrying them out in either way does. -/
@[simp] theorem keep_skipped_keep (d : Delay) (t : List Event) :
    skipped.keep (d.keep t) = skipped.keep t := by
  cases d with
  | real => rfl
  | skipped => exact List.filter_filter.trans (by simp [keep])

@[simp] theorem keep_append (d : Delay) (t u : List Event) :
    d.keep (t ++ u) = d.keep t ++ d.keep u := by
  cases d with
  | real => rfl
  | skipped => exact List.filter_append ..

end Delay

/-- A dry run puts a head together, which always succeeds, and prints with it.  How its delays are
carried out shows in its trace only. -/
theorem dryRun_run (delay : Delay) (setup : PrinterSetup) (program : List Instruction)
    (skip : Bool) :
    (dryRun delay setup program skip ()).trace = (Head.assemble setup Head.simulated ()).trace ++
        delay.keep (printJob program skip (.dry setup)).trace ∧
      (dryRun delay setup program skip ()).ending =
        (printJob program skip (.dry setup)).ending := by
  let job := delay.through (printJob program skip)
  have hrun : dryRun delay setup program skip = ((Head.assemble setup Head.simulated).mapError
      SessionError.assembly >>= fun head => Action.apart id job head >>= fun _ => pure ()) := rfl
  rw [hrun, bind_of_done (mapError_of_done (Head.assemble_simulated setup))]
  have htrace : (Action.apart id job (.dry setup) ()).trace =
      delay.keep (printJob program skip (.dry setup)).trace := List.map_id _
  change _ ++ ((Action.apart id job (.dry setup) >>= fun _ => pure ()) ()).trace = _ ∧
    ((Action.apart id job (.dry setup) >>= fun _ => pure ()) ()).ending = _
  cases hend : (printJob program skip (.dry setup)).ending with
  | done u =>
    have hjob : (job (.dry setup)).ending = .done u := hend
    rw [bind_of_done (apart_of_done hjob), htrace]
    exact ⟨congrArg _ (List.append_nil _), rfl⟩
  | failed e =>
    have hjob : (job (.dry setup)).ending = .failed e := hend
    rw [bind_of_failed (apart_of_failed hjob), htrace]
    exact ⟨rfl, rfl⟩
  | crashed =>
    have hjob : (job (.dry setup)).ending = .crashed := hend
    rw [bind_of_crashed (apart_of_crashed hjob), htrace]
    exact ⟨rfl, rfl⟩

/-! ### Sessions -/

/-- What carries out the delays of a dry run: none takes its time if the run is to be fast. -/
def Options.delay (o : Options) : Delay := if o.fast then .skipped else .real

namespace Session

variable {o : Options} {read : String → FileContent} {setup : PrinterSetup}

theorem run_of_loadSetup (hload : loadSetup read o.setup = .ok setup) :
    run o read = withSetup o read setup := by
  unfold run
  rw [hload]

/-- A setup that does not load ends the session. -/
theorem run_of_setupError {path : String} {cause : SetupError} (hpath : o.setup = some path)
    (hfile : PrinterSetup.ofFile path (read path) = .error cause) :
    run o read = failed (.setup path cause) := by
  have hload : loadSetup read o.setup = .error (.setup path cause) := by
    rw [hpath, loadSetup, hfile]
    rfl
  unfold run
  rw [hload]

/-- Only the file of the setup matters to loading it. -/
theorem loadSetup_congr {read' : String → FileContent}
    (hread : ∀ path ∈ o.setup, read' path = read path) :
    loadSetup read' o.setup = loadSetup read o.setup := by
  cases hpath : o.setup with
  | none => rfl
  | some path => simp only [loadSetup, hread path hpath]

/-- A session that is asked for its setup writes it, whatever else is asked for. -/
theorem run_of_printSetup (hload : loadSetup read o.setup = .ok setup)
    (hprint : o.printSetup = true) :
    ∃ text, setup.toml? = .ok text ∧ run o read = { output := text, ending := .done () } := by
  cases htext : setup.toml? with
  | error e =>
    have hlong := ((PrinterSetup.toml?_error_iff setup e).mp htext).2
    have hshort := (PrinterSetup.usable_of_loadSetup hload).2
    omega
  | ok text =>
    refine ⟨text, rfl, ?_⟩
    rw [run_of_loadSetup hload, withSetup, if_pos hprint, htext]

section

variable {path : String} (hload : loadSetup read o.setup = .ok setup)
  (hprint : o.printSetup = false) (hpath : o.program = some path)

include hload hprint hpath

/-- A program with a line that cannot be read ends the session. -/
theorem run_of_not_legible (hbad : ¬Gcode.Legible (read path)) :
    ∃ cause, run o read = failed (.program path cause) := by
  cases hfile : Instruction.ofFile path (read path) with
  | error cause =>
    refine ⟨cause, ?_⟩
    rw [run_of_loadSetup hload]
    simp only [withSetup, hprint, hpath, hfile, Bool.false_eq_true, if_false]
  | ok program => exact absurd (Gcode.legible_iff.mpr ⟨program, hfile⟩) hbad

/-- What a session does with a program that it has read to its end. -/
theorem run_of_program {program : List Instruction}
    (hfile : Instruction.ofFile path (read path) = .ok program) :
    run o read =
      if o.dump then { output := dumpText program, ending := .done () }
      else if !o.dryRun then failed .noHardware
      else ofRun (dryRun o.delay setup program o.skipHoming ()) := by
  rw [run_of_loadSetup hload]
  simp only [withSetup, hprint, hpath, hfile, Bool.false_eq_true, if_false, Options.delay]
  cases o.fast <;> rfl

end

/-- Two sessions write the same, end in the same way, and differ in nothing that happens but in
their delays. -/
structure SameUpToDelays (s s' : Session) : Prop where
  output : s.output = s'.output
  ending : s.ending = s'.ending
  trace : Delay.skipped.keep s.trace = Delay.skipped.keep s'.trace

theorem SameUpToDelays.refl (s : Session) : SameUpToDelays s s := ⟨rfl, rfl, rfl⟩

/-- How the delays of a dry run are carried out changes its delays only. -/
theorem sameUpToDelays_dryRun (d d' : Delay) (setup : PrinterSetup) (program : List Instruction)
    (skip : Bool) : SameUpToDelays (ofRun (dryRun d setup program skip ()))
      (ofRun (dryRun d' setup program skip ())) := by
  obtain ⟨htrace, hend⟩ := dryRun_run d setup program skip
  obtain ⟨htrace', hend'⟩ := dryRun_run d' setup program skip
  refine ⟨rfl, hend.trans hend'.symm, ?_⟩
  show Delay.skipped.keep (dryRun d setup program skip ()).trace =
    Delay.skipped.keep (dryRun d' setup program skip ()).trace
  rw [htrace, htrace']
  simp

/-- **To be fast changes the delays of a session and nothing else.** -/
theorem sameUpToDelays_fast (o : Options) (read : String → FileContent) (fast : Bool) :
    SameUpToDelays (run { o with fast := fast } read) (run o read) := by
  unfold run
  cases loadSetup read o.setup with
  | error e => exact .refl _
  | ok setup =>
    show SameUpToDelays (withSetup { o with fast := fast } read setup) (withSetup o read setup)
    unfold withSetup
    -- every early exit comes before the choice of the delay
    cases o.printSetup with
    | true => exact .refl _
    | false =>
      cases o.program with
      | none => exact .refl _
      | some path =>
        simp only [Bool.false_eq_true, if_false]
        cases Instruction.ofFile path (read path) with
        | error e => exact .refl _
        | ok program =>
          cases o.dump with
          | true => exact .refl _
          | false =>
            cases o.dryRun with
            | false => exact .refl _
            | true =>
              cases fast <;> cases o.fast <;> exact sameUpToDelays_dryRun ..

/-- **What comes of a session**, for every command line that is accepted and whatever the files
hold.  A setup that does not load ends it before anything is written.  Otherwise the setup is
written, if that is asked for, and the program does not matter.  Otherwise a program with a line
that cannot be read ends the session before anything is written.  Otherwise the program is
dumped, a line for each instruction, or refused for want of hardware, or run dry: the axes are
homed first, if that is not skipped, nothing of the program is executed if that fails, and the
session succeeds exactly if both do.  A session that is to be fast skips the delays of a dry run;
it writes the same, ends in the same way, and does the same to the hardware. -/
theorem run_outcome {arguments : List String}
    (ho : Request.ofArguments arguments = .ok (.run o)) (read : String → FileContent) :
    (∀ path cause, o.setup = some path → PrinterSetup.ofFile path (read path) = .error cause →
      run o read = failed (.setup path cause)) ∧
    (∀ setup, loadSetup read o.setup = .ok setup →
      (o.printSetup = true → ∃ text, setup.toml? = .ok text ∧
        ∀ read', (∀ path ∈ o.setup, read' path = read path) →
          run o read' = { output := text, ending := .done () }) ∧
      (o.printSetup = false → ∃ path, o.program = some path ∧
        (¬Gcode.Legible (read path) → ∃ cause, run o read = failed (.program path cause)) ∧
        (Gcode.Legible (read path) → ∃ program,
          Instruction.ofFile path (read path) = .ok program ∧
          (o.dump = true → run o read = { output := dumpText program, ending := .done () } ∧
            pieces '\n' (dumpText program).toList = program.map (·.json.toList) ++ [[]]) ∧
          (o.dump = false → o.dryRun = false → run o read = failed .noHardware) ∧
          (o.dump = false → o.dryRun = true → ∃ head,
            (Head.assemble setup Head.simulated ()).ending = .done head ∧
            (run o read).output = "" ∧
            (run o read).trace = (Head.assemble setup Head.simulated ()).trace ++
              o.delay.keep (head.homingEvents o.skipHoming ++ if head.isReady o.skipHoming then
                (Head.runProgram program (head.prepared o.skipHoming)).trace else []) ∧
            ((run o read).ending = .done () ↔ head.isReady o.skipHoming = true ∧
              (Head.runProgram program (head.prepared o.skipHoming)).ending = .done ()))))) ∧
    ∀ fast, SameUpToDelays (run { o with fast := fast } read) (run o read) := by
  refine ⟨fun path cause hpath hfile => run_of_setupError hpath hfile, fun setup hload => ⟨?_, ?_⟩,
    sameUpToDelays_fast o read⟩
  · intro hprint
    obtain ⟨text, htext, -⟩ := run_of_printSetup hload hprint
    refine ⟨text, htext, ?_⟩
    intro read' hread
    obtain ⟨text', htext', hrun⟩ := run_of_printSetup ((loadSetup_congr hread).trans hload) hprint
    obtain rfl := Except.ok.inj (htext.symm.trans htext')
    exact hrun
  · intro hprint
    have hsome := (Request.accepted_of_ofArguments ho).program hprint
    obtain ⟨path, hpath⟩ := Option.isSome_iff_exists.mp hsome
    refine ⟨path, hpath, run_of_not_legible hload hprint hpath, ?_⟩
    intro hlegible
    obtain ⟨program, hfile⟩ := Gcode.legible_iff.mp hlegible
    have hrun := run_of_program hload hprint hpath hfile
    refine ⟨program, hfile, fun hdump => ⟨?_, pieces_dumpText program⟩, ?_,
      fun hdump hdry => ⟨.dry setup, Head.assemble_simulated setup, ?_⟩⟩
    · rw [hrun, if_pos hdump]
    · intro hdump hdry
      simp only [hrun, hdump, hdry, Bool.false_eq_true, if_false, Bool.not_false, if_true]
    · have hofRun : run o read = ofRun (dryRun o.delay setup program o.skipHoming ()) := by
        simp only [hrun, hdump, hdry, Bool.false_eq_true, if_false, Bool.not_true]
      obtain ⟨htrace, hend⟩ := dryRun_run o.delay setup program o.skipHoming
      obtain ⟨hjob, hdone⟩ := printJob_run program o.skipHoming (.dry setup)
      rw [hofRun]
      refine ⟨rfl, ?_, ?_⟩
      · exact htrace.trans (congrArg (_ ++ o.delay.keep ·) hjob)
      · exact (iff_of_eq (congrArg (· = _) hend)).trans hdone

/-- A file with a move. -/
def moveFile : FileContent := .ok "G1 X5 F600\n".toUTF8.toList

/-- A file with a line that is none, behind one that is. -/
def halfFile : FileContent := .ok "G28\nG1 Xfive\n".toUTF8.toList

/-- A move on the standard printer is run dry and succeeds; without `fast` it has delays, and is
the same otherwise.  If one line of a program cannot be read, none is dumped. -/
theorem run_outcome_files :
    let dry : Options := { program := some "part.gcode", dryRun := true, fast := true }
    let dump : Options := { program := some "part.gcode", dump := true }
    Request.ofArguments ["--dry-run", "--fast", "part.gcode"] = .ok (.run dry) ∧
      (run dry fun _ => moveFile).output = "" ∧
      (run dry fun _ => moveFile).ending = .done () ∧
      SameUpToDelays (run { dry with fast := false } fun _ => moveFile)
        (run dry fun _ => moveFile) ∧
      (run { dry with fast := false } fun _ => moveFile).trace ≠
        (run dry fun _ => moveFile).trace ∧
      Request.ofArguments ["--dump", "part.gcode"] = .ok (.run dump) ∧
      ∃ cause, run dump (fun _ => halfFile) = failed (.program "part.gcode" cause) := by
  intro dry dump
  have hdry : Request.ofArguments ["--dry-run", "--fast", "part.gcode"] = .ok (.run dry) := by
    decide +kernel
  have hdump : Request.ofArguments ["--dump", "part.gcode"] = .ok (.run dump) := by decide +kernel
  have hmove : Instruction.ofFile "part.gcode" moveFile =
      .ok [.move { goal := { x := some 5 }, feed := some 10 }] := by decide +kernel
  have hhalf : Instruction.ofFile "part.gcode" halfFile =
      .error (.malformed 2 (.invalidNumber "Xfive")) := by decide +kernel
  obtain ⟨-, hloaded, hfast⟩ := run_outcome hdry fun _ => moveFile
  obtain ⟨path, hpath, -, hlegible⟩ := (hloaded .standard rfl).2 rfl
  obtain rfl := Option.some.inj hpath
  obtain ⟨program, hprogram, -, -, hsession⟩ := hlegible (Gcode.legible_iff.mpr ⟨_, hmove⟩)
  obtain rfl := Except.ok.inj (hmove.symm.trans hprogram)
  obtain ⟨head, hhead, houtput, -, hend⟩ := hsession rfl rfl
  obtain rfl := Outcome.done.inj ((Head.assemble_simulated _).symm.trans hhead)
  have hready : (Head.dry .standard).isReady false = true := by decide +kernel
  have hdone : (Head.runProgram [.move { goal := { x := some 5 }, feed := some 10 }]
      ((Head.dry .standard).prepared false)).ending = .done () := by decide +kernel
  refine ⟨hdry, houtput, hend.mpr ⟨hready, hdone⟩, hfast false, by decide +kernel, hdump, ?_⟩
  obtain ⟨-, hloaded, -⟩ := run_outcome hdump fun _ => halfFile
  obtain ⟨path, hpath, hrefused, -⟩ := (hloaded .standard rfl).2 rfl
  obtain rfl := Option.some.inj hpath
  apply hrefused
  intro hlegible
  have hread : ∃ program, Instruction.ofFile "part.gcode" halfFile = .ok program :=
    Gcode.legible_iff.mp hlegible
  rw [hhalf] at hread
  obtain ⟨program, hread⟩ := hread
  cases hread

end Session

end TachoPrint
