import TachoPrint.Proofs.Decimal.Whole
import TachoPrint.Proofs.Gcode.Parameters
import TachoPrint.Proofs.Gcode.Words

/-!
# The table of commands

The first word of a line names a command by a letter and a number, or else the line is
skipped.  Only commands that look at numbers refuse a line, and they blame a word behind
the command.  Commands that choose axes look at letters alone and refuse nothing.

## Main definitions

* `Gcode.Command.NamedBy` — a word names a command.
* `Gcode.WordError.word` — the word that an error blames.
* `Gcode.Chooses` — the axes that words choose.

## Main results

* `Gcode.Command.ofWord?_eq_some_iff` — **the command of a word is the one that it names.**
* `Gcode.Command.word_of_instruction` — which commands refuse words, and which words.
* `Gcode.chooses_axesOf` — the axes of a homing or release command.
* `Instruction.ofLine?_table` — **what becomes of a line**, by its first word.
-/

namespace TachoPrint

namespace Gcode

/-! ### Names of commands -/

namespace Command

/-- The letters and numbers that name a command. -/
def names : Command → List (Char × Nat)
  | .move => [('G', 0), ('G', 1)]
  | .pause => [('G', 4)]
  | .home => [('G', 28)]
  | .absolute => [('G', 90)]
  | .relative => [('G', 91)]
  | .setPosition => [('G', 92)]
  | .release => [('M', 18), ('M', 84)]

/-- The word names the command: it is one of the letters, in either case, with the number
behind it. -/
def NamedBy (c : Command) (w : Word) : Prop :=
  ∃ letter number, (letter, number) ∈ c.names ∧ w.Begins letter ∧
    Decimal.SpellsWhole number w.value

@[grind =] theorem named?_eq_some_iff {letter : Char} {number : Nat} {c : Command} :
    named? letter number = some c ↔ (letter, number) ∈ c.names := by
  constructor
  · intro h
    unfold named? at h
    split at h
    case h_10 => cases h
    all_goals
      obtain rfl := Option.some.inj h
      decide
  · have hnames : ∀ p ∈ c.names, named? p.1 p.2 = some c := by cases c <;> decide
    exact hnames (letter, number)

/-- **The command of a word is the one that it names.** -/
@[grind =] theorem ofWord?_eq_some_iff {w : Word} {c : Command} :
    ofWord? w = some c ↔ c.NamedBy w := by
  have hrange : ∀ p ∈ c.names, p.1.isUpper ∧ p.2 < 4294967296 := by cases c <;> decide
  rw [ofWord?, Option.bind_eq_some_iff]
  constructor
  · rintro ⟨number, hnumber, hnamed⟩
    have hmem := named?_eq_some_iff.mp hnamed
    exact ⟨w.letter, number, hmem, (Word.letter_eq_iff (hrange _ hmem).1).mp rfl,
      (wordNumber?_eq_some_iff.mp hnumber).2⟩
  · rintro ⟨letter, number, hmem, hbegins, hspells⟩
    obtain ⟨hupper, hlt⟩ := hrange _ hmem
    refine ⟨number, wordNumber?_eq_some_iff.mpr ⟨hlt, hspells⟩, ?_⟩
    rw [(Word.letter_eq_iff hupper).mpr hbegins]
    exact named?_eq_some_iff.mpr hmem

theorem ofWord?_eq_none_iff {w : Word} : ofWord? w = none ↔ ∀ c : Command, ¬c.NamedBy w := by
  rw [Option.eq_none_iff_forall_ne_some]
  exact forall_congr' fun c => not_congr ofWord?_eq_some_iff

end Command

/-! ### The word that is blamed -/

/-- The word that an error blames, as written. -/
def WordError.word : WordError → String
  | .invalidNumber w => w
  | .missingValue w => w
  | .negativeDuration w => w
  | .durationTooLong w => w

@[simp] theorem Word.word_fault (w : Word) : w.fault.word = w.text := by
  unfold fault
  split <;> rfl

theorem bind_eq_error_iff {ε α β : Type} {x : Except ε α} {f : α → Except ε β} {e : ε} :
    (x >>= f) = .error e ↔ x = .error e ∨ ∃ a, x = .ok a ∧ f a = .error e := by
  cases x with
  | error e' => simp [bind, Except.bind]
  | ok a => simp [bind, Except.bind]

theorem map_eq_error_iff {ε α β : Type} {x : Except ε α} {f : α → β} {e : ε} :
    f <$> x = .error e ↔ x = .error e := by
  cases x with
  | error e' =>
    constructor
    · intro h
      exact congrArg _ (Except.error.inj h)
    · intro h
      exact congrArg _ (Except.error.inj h)
  | ok a => exact ⟨nofun, nofun⟩

/-- A fold that breaks off does so at one of the items. -/
theorem exists_of_foldlM_error {ε α β : Type} {step : β → α → Except ε β} {l : List α} {b : β}
    {e : ε} (h : l.foldlM step b = .error e) : ∃ a ∈ l, ∃ b', step b' a = .error e := by
  induction l generalizing b with
  | nil => cases h
  | cons a l ih =>
    rw [List.foldlM_cons, bind_eq_error_iff] at h
    rcases h with h | ⟨b', -, hrest⟩
    · exact ⟨a, List.mem_cons_self, b, h⟩
    · obtain ⟨a', hmem, ha'⟩ := ih hrest
      exact ⟨a', List.mem_cons_of_mem a hmem, ha'⟩

/-- What a step blames that looks at a word and refuses it for its value. -/
theorem Word.word_of_refused {β : Type} {w : Word} {p : Prop} [Decidable p] {b : β}
    {e : WordError} (h : (if p then .error w.fault else .ok b) = Except.error e) :
    e.word = w.text := by
  split at h
  · obtain rfl := Except.error.inj h
    exact w.word_fault
  · cases h

theorem word_of_coordinateStep {c : Coordinates} {w : Word} {e : WordError}
    (h : coordinateStep c w = .error e) : e.word = w.text := by
  rw [coordinateStep_eq] at h
  exact Word.word_of_refused h

theorem word_of_moveStep {m : Move} {w : Word} {e : WordError} (h : moveStep m w = .error e) :
    e.word = w.text := by
  rw [moveStep_eq] at h
  exact Word.word_of_refused h

theorem pauseStep_of_other {micros : Binary64} {w : Word} (h : millisPerUnit? w.letter = none) :
    pauseStep micros w = .ok micros := by
  unfold pauseStep
  rw [h]
  rfl

theorem pauseStep_of_value?_eq_none {micros unit : Binary64} {w : Word}
    (hunit : millisPerUnit? w.letter = some unit) (h : w.value? = none) :
    pauseStep micros w = .error w.fault := by
  unfold pauseStep
  rw [hunit, Word.number_of_value?_eq_none h]
  rfl

theorem pauseStep_of_value? {micros unit v : Binary64} {w : Word}
    (hunit : millisPerUnit? w.letter = some unit) (h : w.value? = some v) :
    pauseStep micros w =
      if v.less 0 then .error (.negativeDuration w.text)
      else if maxPauseMillis.less (v * unit) then .error (.durationTooLong w.text)
      else .ok (v * unit * 1000) := by
  unfold pauseStep
  rw [hunit, Word.number_of_value? h]
  simp only [bind, Except.bind]
  split
  · rfl
  · split <;> rfl

theorem word_of_pauseStep {micros : Binary64} {w : Word} {e : WordError}
    (h : pauseStep micros w = .error e) : e.word = w.text := by
  cases hunit : millisPerUnit? w.letter with
  | none =>
    rw [pauseStep_of_other hunit] at h
    cases h
  | some unit =>
    cases hvalue : w.value? with
    | none =>
      rw [pauseStep_of_value?_eq_none hunit hvalue] at h
      obtain rfl := Except.error.inj h
      exact w.word_fault
    | some v =>
      rw [pauseStep_of_value? hunit hvalue] at h
      split at h
      · obtain rfl := Except.error.inj h
        rfl
      · split at h
        · obtain rfl := Except.error.inj h
          rfl
        · cases h

/-- Steps that blame their own words make a fold that blames one of its words. -/
theorem word_of_foldlM {β γ : Type} {step : β → Word → Except WordError β}
    (hstep : ∀ {b w e}, step b w = .error e → e.word = w.text) {f : β → γ} {ws : List Word} {b : β}
    {e : WordError} (h : (ws.foldlM step b >>= fun x => .ok (f x)) = .error e) :
    ∃ u ∈ ws, e.word = u.text := by
  rcases bind_eq_error_iff.mp h with hfold | ⟨x, -, hx⟩
  · obtain ⟨u, hu, b', hb'⟩ := exists_of_foldlM_error hfold
    exact ⟨u, hu, hstep hb'⟩
  · cases hx

/-- **Only commands that look at numbers refuse words**, and they blame a word that is
there. -/
theorem Command.word_of_instruction {c : Command} {ws : List Word} {e : WordError}
    (h : c.instruction ws = .error e) :
    c ∈ [move, pause, setPosition] ∧ ∃ u ∈ ws, e.word = u.text := by
  cases c with
  | move => exact ⟨by decide, word_of_foldlM word_of_moveStep h⟩
  | pause => exact ⟨by decide, word_of_foldlM word_of_pauseStep h⟩
  | setPosition => exact ⟨by decide, word_of_foldlM word_of_coordinateStep h⟩
  | home | absolute | relative | release => cases h

/-! ### Chosen axes -/

/-- The axes that words choose: those that begin one of them, in either case, or all of
them if there is no such word. -/
inductive Chooses (ws : List Word) : AxisSet → Prop
  /-- Some word begins with an axis. -/
  | named {axes : AxisSet} (hx : axes.x ↔ ∃ u ∈ ws, u.Begins 'X')
      (hy : axes.y ↔ ∃ u ∈ ws, u.Begins 'Y') (hz : axes.z ↔ ∃ u ∈ ws, u.Begins 'Z')
      (h : ∃ u ∈ ws, u.Begins 'X' ∨ u.Begins 'Y' ∨ u.Begins 'Z') : Chooses ws axes
  /-- No word does. -/
  | all (h : ∀ u ∈ ws, ¬(u.Begins 'X' ∨ u.Begins 'Y' ∨ u.Begins 'Z')) : Chooses ws .all

theorem isEmpty_eq_false_iff {ws : List Word} {axes : AxisSet}
    (hx : axes.x ↔ ∃ u ∈ ws, u.Begins 'X') (hy : axes.y ↔ ∃ u ∈ ws, u.Begins 'Y')
    (hz : axes.z ↔ ∃ u ∈ ws, u.Begins 'Z') :
    axes.isEmpty = false ↔ ∃ u ∈ ws, u.Begins 'X' ∨ u.Begins 'Y' ∨ u.Begins 'Z' := by
  have hany : axes.isEmpty = false ↔ axes.x ∨ axes.y ∨ axes.z := by
    rw [AxisSet.isEmpty, Bool.not_eq_false', Bool.or_eq_true, Bool.or_eq_true, or_assoc]
  rw [hany, hx, hy, hz]
  simp only [and_or_left, exists_or]

theorem Chooses.not_isEmpty {ws : List Word} {axes : AxisSet} (h : Chooses ws axes) :
    axes.isEmpty = false := by
  cases h with
  | named hx hy hz h => exact (isEmpty_eq_false_iff hx hy hz).mpr h
  | all => rfl

theorem axisStep_eq (axes : AxisSet) (w : Word) :
    axisStep axes w =
      ⟨axes.x || w.letter = 'X', axes.y || w.letter = 'Y', axes.z || w.letter = 'Z'⟩ := by
  unfold axisStep
  split
  · next h => simp [h]
  · next h => simp [h]
  · next h => simp [h]
  · next hx hy hz =>
    rw [decide_eq_false hx, decide_eq_false hy, decide_eq_false hz]
    simp only [Bool.or_false]

theorem foldl_axisStep (ws : List Word) (axes : AxisSet) :
    ws.foldl axisStep axes =
      ⟨axes.x || ws.any (·.letter = 'X'), axes.y || ws.any (·.letter = 'Y'),
        axes.z || ws.any (·.letter = 'Z')⟩ := by
  induction ws generalizing axes with
  | nil => simp
  | cons w ws ih =>
    rw [List.foldl_cons, ih, axisStep_eq]
    simp [Bool.or_assoc]

theorem any_letter_iff {ws : List Word} {letter : Char} (h : letter.isUpper) :
    ws.any (·.letter = letter) ↔ ∃ u ∈ ws, u.Begins letter := by
  simp only [List.any_eq_true, decide_eq_true_eq, Word.letter_eq_iff h]

/-- **The axes of a homing or release command are those that its words choose.** -/
theorem chooses_axesOf (ws : List Word) : Chooses ws (axesOf ws) := by
  have hfold : ws.foldl axisStep .empty =
      ⟨ws.any (·.letter = 'X'), ws.any (·.letter = 'Y'), ws.any (·.letter = 'Z')⟩ :=
    foldl_axisStep ws .empty
  unfold axesOf
  generalize ws.foldl axisStep .empty = axes at hfold
  have hx : axes.x ↔ ∃ u ∈ ws, u.Begins 'X' := by rw [hfold]; exact any_letter_iff (by decide)
  have hy : axes.y ↔ ∃ u ∈ ws, u.Begins 'Y' := by rw [hfold]; exact any_letter_iff (by decide)
  have hz : axes.z ↔ ∃ u ∈ ws, u.Begins 'Z' := by rw [hfold]; exact any_letter_iff (by decide)
  have hnamed := isEmpty_eq_false_iff hx hy hz
  dsimp only
  split
  · next hempty =>
    refine .all ?_
    intro u hu hbegins
    have hsome := hnamed.mpr ⟨u, hu, hbegins⟩
    rw [hempty] at hsome
    cases hsome
  · next hsome => exact .named hx hy hz (hnamed.mp (Bool.eq_false_of_not_eq_true hsome))

/-! ### Lines -/

theorem Instructs.ofLine?_nil {line : String} (h : Instructs line.toList []) :
    Instruction.ofLine? line = .ok none := by
  rw [Instruction.ofLine?, instructionOf?, instructs_iff.mp h]
  rfl

theorem Instructs.ofLine?_of_unnamed {line : String} {w : Word} {params : List Word}
    (h : Instructs line.toList (w :: params)) (hw : ∀ c : Command, ¬c.NamedBy w) :
    Instruction.ofLine? line = .ok none := by
  rw [Instruction.ofLine?, instructionOf?, instructs_iff.mp h]
  simp only [Command.ofWord?_eq_none_iff.mpr hw]
  rfl

theorem Instructs.ofLine?_of_named {line : String} {w : Word} {params : List Word} {c : Command}
    (h : Instructs line.toList (w :: params)) (hw : c.NamedBy w) :
    Instruction.ofLine? line = some <$> c.instruction params :=
  ofLine?_of_command (instructs_iff.mp h) (Command.ofWord?_eq_some_iff.mpr hw)

/-- A line is skipped exactly if it has no words, or its first one names no command. -/
theorem Instructs.ofLine?_eq_none_iff {line : String} {ws : List Word}
    (h : Instructs line.toList ws) :
    Instruction.ofLine? line = .ok none ↔ ∀ w ∈ ws.head?, ∀ c : Command, ¬c.NamedBy w := by
  cases ws with
  | nil => exact iff_of_true h.ofLine?_nil nofun
  | cons w params =>
    constructor
    · intro hnone v hv c hc
      obtain rfl := Option.some.inj hv
      rw [h.ofLine?_of_named hc] at hnone
      cases hread : c.instruction params with
      | error e =>
        rw [hread] at hnone
        cases hnone
      | ok i =>
        rw [hread] at hnone
        cases Except.ok.inj hnone
    · intro hunnamed
      exact h.ofLine?_of_unnamed (hunnamed w rfl)

/-- An instruction comes from a command and the words behind it. -/
theorem exists_of_ofLine?_eq_some {line : String} {i : Instruction}
    (h : Instruction.ofLine? line = .ok (some i)) :
    ∃ w params, ∃ c : Command, Instructs line.toList (w :: params) ∧ c.NamedBy w ∧
      c.instruction params = .ok i := by
  have hwords := instructs_iff.mpr (rfl : dropLineNumber (wordsOfLine line.toList) = _)
  cases hws : dropLineNumber (wordsOfLine line.toList) with
  | nil =>
    rw [hws] at hwords
    rw [hwords.ofLine?_nil] at h
    cases h
  | cons w params =>
    rw [hws] at hwords
    by_cases hw : ∃ c : Command, c.NamedBy w
    · obtain ⟨c, hc⟩ := hw
      rw [hwords.ofLine?_of_named hc] at h
      refine ⟨w, params, c, hwords, hc, ?_⟩
      cases hread : c.instruction params with
      | error e =>
        rw [hread] at h
        cases h
      | ok j =>
        rw [hread] at h
        obtain rfl := Option.some.inj (Except.ok.inj h)
        rfl
    · rw [hwords.ofLine?_of_unnamed (not_exists.mp hw)] at h
      cases h

/-- The error of a line blames a word behind a command that looks at numbers. -/
theorem Instructs.word_of_ofLine?_error {line : String} {ws : List Word}
    (h : Instructs line.toList ws) {e : WordError} (he : Instruction.ofLine? line = .error e) :
    ∃ w params c, ws = w :: params ∧ c.NamedBy w ∧
      c ∈ [Command.move, .pause, .setPosition] ∧ ∃ u ∈ params, e.word = u.text := by
  cases ws with
  | nil =>
    rw [h.ofLine?_nil] at he
    cases he
  | cons w params =>
    by_cases hw : ∃ c : Command, c.NamedBy w
    · obtain ⟨c, hc⟩ := hw
      rw [h.ofLine?_of_named hc, map_eq_error_iff] at he
      exact ⟨w, params, c, rfl, hc, Command.word_of_instruction he⟩
    · rw [h.ofLine?_of_unnamed (not_exists.mp hw)] at he
      cases he

end Gcode

/-- **What becomes of a line.**  It has one list of words in front of its comment, less a
line number.  The line is skipped exactly if there are no such words or the first of them
names no command.  It is refused only if that word names a move, a pause or a command for
new coordinates, and then the error carries one of the words behind it as written.  A homing
or release command is always accepted, with the axes that begin words behind it, or with all
of them, and never with none. -/
theorem Instruction.ofLine?_table (line : String) :
    ∃ ws, (∀ vs, Gcode.Instructs line.toList vs ↔ vs = ws) ∧
      (ofLine? line = .ok none ↔ ∀ w ∈ ws.head?, ∀ c : Gcode.Command, ¬c.NamedBy w) ∧
      (∀ e, ofLine? line = .error e →
        ∃ w params c, ws = w :: params ∧ c.NamedBy w ∧
          c ∈ [Gcode.Command.move, .pause, .setPosition] ∧ ∃ u ∈ params, e.word = u.text) ∧
      ∀ w params, ws = w :: params →
        (Gcode.Command.home.NamedBy w → ∃ axes, Gcode.Chooses params axes ∧
          axes.isEmpty = false ∧ ofLine? line = .ok (some (.home axes))) ∧
        (Gcode.Command.release.NamedBy w → ∃ axes, Gcode.Chooses params axes ∧
          axes.isEmpty = false ∧ ofLine? line = .ok (some (.release axes))) := by
  have hwords :
      Gcode.Instructs line.toList (Gcode.dropLineNumber (Gcode.wordsOfLine line.toList)) :=
    Gcode.instructs_iff.mpr rfl
  refine ⟨_, fun vs => Gcode.instructs_iff.trans eq_comm, hwords.ofLine?_eq_none_iff,
    fun e he => hwords.word_of_ofLine?_error he, fun w params hws => ?_⟩
  rw [hws] at hwords
  have hchosen := Gcode.chooses_axesOf params
  constructor
  · intro hhome
    exact ⟨_, hchosen, hchosen.not_isEmpty, hwords.ofLine?_of_named hhome⟩
  · intro hrelease
    exact ⟨_, hchosen, hchosen.not_isEmpty, hwords.ofLine?_of_named hrelease⟩

/-- A numbered line with a padded command and words that no number is read from. -/
example : Instruction.ofLine? "n3 m084 Yfoo x ;z" = .ok (some (.release ⟨true, true, false⟩)) := by
  decide

end TachoPrint
