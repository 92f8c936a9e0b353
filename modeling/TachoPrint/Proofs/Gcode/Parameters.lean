import TachoPrint.Proofs.Gcode.Numbers

/-!
# The parameters of a move

The words behind `G0`, `G1` and `G92` are read from left to right into one value.  What
they come to can be said without the reading: the first word that has to hold a number and
does not is refused, and otherwise every letter counts with its last word.  So the order of
words matters only among those of one letter, and words of other letters not at all.

## Main definitions

* `Gcode.Word.value?` — the finite number of a word.
* `Gcode.Command.reads` — the words that a command with numbers looks at.
* `Gcode.Command.told?` — what the words tell a command with numbers.

## Main results

* `Gcode.foldlM_eq_find?` — a fold that breaks off reports the first bad item.
* `Gcode.Command.instruction_eq_told?` — the two ways to read agree.
* `Gcode.Command.told?_of_letters` — only the order within a letter matters.
* `Instruction.ofLine?_eq_told?` — **what the words of a move or of new coordinates say.**
-/

namespace TachoPrint

namespace Gcode

/-! ### Values of words -/

namespace Word

/-- The value of a word, if it is a finite number. -/
def value? (w : Word) : Option Binary64 := (Binary64.ofText? w.value).filter (·.isFinite)

/-- Why a word without a value is refused. -/
def fault (w : Word) : WordError :=
  if w.value = [] then .missingValue w.text else .invalidNumber w.text

theorem number_of_value? {w : Word} {v : Binary64} (h : w.value? = some v) :
    w.number = .ok v := by
  obtain ⟨hread, hfinite⟩ := Option.filter_eq_some_iff.mp h
  have hvalue : w.value ≠ [] := by
    intro hempty
    have hnothing : Binary64.ofText? [] = none := by decide
    rw [hempty, hnothing] at hread
    cases hread
  rw [number, if_neg hvalue, hread]
  exact if_pos hfinite

theorem number_of_value?_eq_none {w : Word} (h : w.value? = none) :
    w.number = .error w.fault := by
  unfold number fault
  split
  · rfl
  · split
    · next v hread =>
      have hfinite : ¬v.isFinite := Option.filter_eq_none_iff.mp h v hread
      rw [if_neg hfinite]
    · rfl

/-- The word gives a feed rate: an F with a value other than zero. -/
def setsFeed (w : Word) : Bool :=
  w.letter = 'F' && w.value?.any fun v => !v.equals 0

theorem setsFeed_eq_false {w : Word} (h : w.letter ≠ 'F') : w.setsFeed = false := by
  simp [setsFeed, h]

end Word

/-! ### Folds that break off -/

/-- A fold that breaks off reports the first bad item, and otherwise has nothing to break
off for. -/
theorem foldlM_eq_find? {ε α β : Type} {step : β → α → Except ε β} {bad : α → Bool}
    {fault : α → ε} {next : β → α → β}
    (h : ∀ b a, step b a = if bad a then .error (fault a) else .ok (next b a))
    (l : List α) (b : β) :
    l.foldlM step b =
      match l.find? bad with
      | some a => .error (fault a)
      | none => .ok (l.foldl next b) := by
  induction l generalizing b with
  | nil => rfl
  | cons a l ih =>
    rw [List.foldlM_cons, h, List.find?_cons]
    cases hbad : bad a with
    | true => rfl
    | false => exact ih (next b a)

/-- Where some items replace what is held and others do not, the last one that does
counts. -/
theorem foldl_ite_eq_elim {α β : Type} (p : α → Bool) (f : α → β) (l : List α) (b : β) :
    l.foldl (fun held a => if p a then f a else held) b = (l.filter p).getLast?.elim b f := by
  induction l generalizing b with
  | nil => rfl
  | cons a l ih =>
    rw [List.foldl_cons, ih]
    cases hp : p a with
    | true =>
      rw [List.filter_cons_of_pos hp, List.getLast?_cons]
      cases (l.filter p).getLast? with
      | none => rfl
      | some last => rfl
    | false => rw [List.filter_cons_of_neg (by simp [hp])]; rfl

/-! ### What words tell -/

/-- The value of the last word that is chosen. -/
def lastValue? (chosen : Word → Bool) (ws : List Word) : Option Binary64 :=
  (ws.filter chosen).getLast?.bind Word.value?

/-- The value of the last word with a letter. -/
def lastOf? (letter : Char) (ws : List Word) : Option Binary64 :=
  lastValue? (·.letter = letter) ws

theorem lastValue?_eq_none_iff {chosen : Word → Bool} {ws : List Word}
    (h : ∀ w ∈ ws, chosen w → w.value? ≠ none) :
    lastValue? chosen ws = none ↔ ∀ w ∈ ws, ¬chosen w := by
  unfold lastValue?
  cases hlast : (ws.filter chosen).getLast? with
  | none =>
    rw [List.getLast?_eq_none_iff, List.filter_eq_nil_iff] at hlast
    simpa using hlast
  | some last =>
    obtain ⟨hmem, hchosen⟩ := List.mem_filter.mp (List.mem_of_getLast? hlast)
    refine iff_of_false (h last hmem hchosen) fun hnone => hnone last hmem hchosen

theorem lastValue?_eq_foldl (chosen : Word → Bool) (ws : List Word) :
    lastValue? chosen ws =
      ws.foldl (fun held w => if chosen w then w.value? else held) none := by
  rw [foldl_ite_eq_elim, lastValue?]
  cases (ws.filter chosen).getLast? with
  | none => rfl
  | some last => rfl

/-- The coordinates that words give: for each letter the value of its last word. -/
def coordinatesTold (ws : List Word) : Coordinates :=
  ⟨lastOf? 'X' ws, lastOf? 'Y' ws, lastOf? 'Z' ws, lastOf? 'E' ws⟩

/-- The move that words give.  The feed rate is that of the last F which is not zero. -/
def moveTold (ws : List Word) : Move :=
  ⟨coordinatesTold ws, (lastValue? Word.setsFeed ws).map (· / 60)⟩

namespace Command

/-- The letters with a number that a command looks at; pauses, whose numbers are checked
further, have their own reading. -/
def letters : Command → List Char
  | .move => ['X', 'Y', 'Z', 'E', 'F']
  | .setPosition => ['X', 'Y', 'Z', 'E']
  | _ => []

/-- The command looks at the number of the word. -/
def reads (c : Command) (w : Word) : Bool := c.letters.contains w.letter

/-- The command looks at a number that is not there. -/
def refuses (c : Command) (w : Word) : Bool := c.reads w && w.value?.isNone

/-- What the words tell a move or a command for new coordinates, if nothing is refused.
New coordinates are all zero where no word gives one. -/
def told? (ws : List Word) : Command → Option Instruction
  | .move => some (.move (moveTold ws))
  | .setPosition =>
      some (.setPosition (if ws.any (reads .setPosition) then coordinatesTold ws
        else zeroCoordinates))
  | _ => none

@[simp, grind =] theorem reads_iff {c : Command} {w : Word} : c.reads w ↔ w.letter ∈ c.letters := by
  simp [reads]

@[simp, grind =] theorem refuses_iff {c : Command} {w : Word} :
    c.refuses w ↔ w.letter ∈ c.letters ∧ w.value? = none := by
  simp [refuses, reads]

theorem reads_of_refuses {c : Command} {w : Word} (h : c.refuses w) : c.reads w := by
  grind

/-- Nothing is refused: every word that the command looks at has a value. -/
theorem find?_refuses_eq_none_iff {c : Command} {ws : List Word} :
    ws.find? c.refuses = none ↔ ∀ w ∈ ws, w.letter ∈ c.letters → w.value? ≠ none := by
  rw [List.find?_eq_none]
  grind

end Command

/-! ### The reading from left to right -/

/-- Coordinates after one more word, whatever its value. -/
def coordinatesNext (c : Coordinates) (w : Word) : Coordinates :=
  ⟨if w.letter = 'X' then w.value? else c.x, if w.letter = 'Y' then w.value? else c.y,
    if w.letter = 'Z' then w.value? else c.z, if w.letter = 'E' then w.value? else c.e⟩

theorem coordinatesNext_of_other {c : Coordinates} {w : Word}
    (h : w.letter ∉ Command.letters .setPosition) : coordinatesNext c w = c := by
  simp only [Command.letters, List.mem_cons, List.not_mem_nil, or_false, not_or] at h
  obtain ⟨hx, hy, hz, he⟩ := h
  rw [coordinatesNext, if_neg hx, if_neg hy, if_neg hz, if_neg he]

theorem coordinateStep_of_other {c : Coordinates} {w : Word}
    (h : w.letter ∉ Command.letters .setPosition) : coordinateStep c w = .ok c := by
  unfold coordinateStep
  split
  case h_5 => rfl
  all_goals next hletter => exact absurd (hletter ▸ h) (by decide)

theorem coordinateStep_of_value? {c : Coordinates} {w : Word} {v : Binary64}
    (h : w.value? = some v) : coordinateStep c w = .ok (coordinatesNext c w) := by
  have hnumber := Word.number_of_value? h
  unfold coordinateStep coordinatesNext
  split <;> simp_all [pure, Except.pure, bind, Except.bind]

theorem coordinateStep_of_value?_eq_none {c : Coordinates} {w : Word}
    (hletter : w.letter ∈ Command.letters .setPosition) (h : w.value? = none) :
    coordinateStep c w = .error w.fault := by
  have hnumber := Word.number_of_value?_eq_none h
  simp only [Command.letters, List.mem_cons, List.not_mem_nil, or_false] at hletter
  unfold coordinateStep
  rcases hletter with hx | hy | hz | he
  · simp [hx, hnumber, bind, Except.bind]
  · simp [hy, hnumber, bind, Except.bind]
  · simp [hz, hnumber, bind, Except.bind]
  · simp [he, hnumber, bind, Except.bind]

theorem coordinateStep_eq (c : Coordinates) (w : Word) :
    coordinateStep c w =
      if Command.refuses .setPosition w then .error w.fault else .ok (coordinatesNext c w) := by
  by_cases hletter : w.letter ∈ Command.letters .setPosition
  · cases hvalue : w.value? with
    | none =>
      simpa [hletter, hvalue] using coordinateStep_of_value?_eq_none hletter hvalue
    | some v =>
      simpa [hvalue] using coordinateStep_of_value? hvalue
  · rw [coordinatesNext_of_other hletter]
    simpa [hletter] using coordinateStep_of_other hletter

/-- A move after one more word, whatever its value. -/
def moveNext (m : Move) (w : Word) : Move :=
  ⟨coordinatesNext m.goal w, if w.setsFeed then w.value?.map (· / 60) else m.feed⟩

theorem moveStep_of_feed {m : Move} {w : Word} (h : w.letter = 'F') :
    moveStep m w = if Command.refuses .move w then .error w.fault else .ok (moveNext m w) := by
  have hreads : w.letter ∈ Command.letters .move := by simp [h, Command.letters]
  have hgoal : coordinatesNext m.goal w = m.goal :=
    coordinatesNext_of_other (by simp [h, Command.letters])
  simp only [moveStep, h]
  cases hvalue : w.value? with
  | none =>
    rw [if_pos (Command.refuses_iff.mpr ⟨hreads, hvalue⟩), Word.number_of_value?_eq_none hvalue]
    rfl
  | some v =>
    rw [if_neg fun hr => by simpa [hvalue] using (Command.refuses_iff.mp hr).2,
      Word.number_of_value? hvalue, moveNext, hgoal]
    change (if v.equals 0 then Except.ok m else .ok { m with feed := some (v / 60) }) = _
    cases hzero : v.equals 0 with
    | true => simp [Word.setsFeed, h, hvalue, hzero]
    | false => simp [Word.setsFeed, h, hvalue, hzero]

theorem moveStep_of_coordinate {m : Move} {w : Word} (h : w.letter ≠ 'F') :
    moveStep m w = if Command.refuses .move w then .error w.fault else .ok (moveNext m w) := by
  have hrefuses : Command.refuses .move w = Command.refuses .setPosition w := by
    simp [Command.refuses, Command.reads, Command.letters, h]
  have hstep : moveStep m w =
      coordinateStep m.goal w >>= fun goal => .ok { m with goal := goal } := by
    unfold moveStep
    split
    · next hletter => exact absurd hletter h
    · rfl
  rw [hstep, coordinateStep_eq, hrefuses, moveNext, Word.setsFeed_eq_false h]
  split
  · rfl
  · rfl

theorem moveStep_eq (m : Move) (w : Word) :
    moveStep m w = if Command.refuses .move w then .error w.fault else .ok (moveNext m w) := by
  by_cases h : w.letter = 'F'
  · exact moveStep_of_feed h
  · exact moveStep_of_coordinate h

/-- Each coordinate is replaced on its own. -/
theorem foldl_coordinatesNext (ws : List Word) (c : Coordinates) :
    ws.foldl coordinatesNext c =
      ⟨ws.foldl (fun held w => if w.letter = 'X' then w.value? else held) c.x,
        ws.foldl (fun held w => if w.letter = 'Y' then w.value? else held) c.y,
        ws.foldl (fun held w => if w.letter = 'Z' then w.value? else held) c.z,
        ws.foldl (fun held w => if w.letter = 'E' then w.value? else held) c.e⟩ := by
  induction ws generalizing c with
  | nil => rfl
  | cons w ws ih => exact ih (coordinatesNext c w)

theorem foldl_moveNext (ws : List Word) (m : Move) :
    ws.foldl moveNext m =
      ⟨ws.foldl coordinatesNext m.goal,
        ws.foldl (fun held w => if w.setsFeed then w.value?.map (· / 60) else held) m.feed⟩ := by
  induction ws generalizing m with
  | nil => rfl
  | cons w ws ih => exact ih (moveNext m w)

@[simp] theorem foldl_coordinatesNext_empty (ws : List Word) :
    ws.foldl coordinatesNext {} = coordinatesTold ws := by
  rw [foldl_coordinatesNext, coordinatesTold]
  simp only [lastOf?, lastValue?_eq_foldl, decide_eq_true_eq]

@[simp] theorem foldl_moveNext_empty (ws : List Word) : ws.foldl moveNext {} = moveTold ws := by
  rw [foldl_moveNext, foldl_coordinatesNext_empty, moveTold, foldl_ite_eq_elim, lastValue?]
  cases (ws.filter Word.setsFeed).getLast? with
  | none => rfl
  | some last => rfl

/-- Coordinates are told exactly when a word is looked at. -/
theorem isEmpty_coordinatesTold {ws : List Word}
    (h : ws.find? (Command.refuses .setPosition) = none) :
    (coordinatesTold ws).isEmpty = !ws.any (Command.reads .setPosition) := by
  rw [Command.find?_refuses_eq_none_iff] at h
  have hnone : ∀ letter ∈ Command.letters .setPosition,
      (lastOf? letter ws = none ↔ ∀ w ∈ ws, w.letter ≠ letter) := by
    intro letter hletter
    rw [lastOf?, lastValue?_eq_none_iff fun w hw hchosen => h w hw (by simp_all)]
    simp
  rw [Bool.eq_iff_iff]
  simp only [Coordinates.isEmpty, coordinatesTold, Bool.and_eq_true, Option.isNone_iff_eq_none]
  rw [hnone 'X' (by decide), hnone 'Y' (by decide), hnone 'Z' (by decide), hnone 'E' (by decide)]
  simp only [Command.reads, Command.letters, Bool.not_eq_true', List.any_eq_false]
  simp only [List.contains_eq_mem, List.mem_cons, List.not_mem_nil, or_false,
    decide_eq_true_eq, not_or, ne_eq]
  simp only [← forall_and, and_assoc]

/-! ### Commands with numbers -/

namespace Command

/-- A move and new coordinates are what the last words of each letter tell, unless a word
that they look at has no value. -/
theorem instruction_eq_told? {c : Command} (hc : c = .move ∨ c = .setPosition)
    (ws : List Word) :
    some <$> c.instruction ws =
      match ws.find? c.refuses with
      | some w => .error w.fault
      | none => .ok (c.told? ws) := by
  rcases hc with rfl | rfl
  · rw [instruction, foldlM_eq_find? moveStep_eq, foldl_moveNext_empty]
    cases ws.find? (refuses .move) with
    | some w => rfl
    | none => rfl
  · rw [instruction, foldlM_eq_find? coordinateStep_eq, foldl_coordinatesNext_empty]
    cases hrefused : ws.find? (refuses .setPosition) with
    | some w => rfl
    | none =>
      change Except.ok (some (Instruction.setPosition _)) = _
      rw [isEmpty_coordinatesTold hrefused, told?]
      cases ws.any (reads .setPosition) with
      | true => rfl
      | false => rfl

/-! ### Words that do not matter -/

theorem any_reads_eq (c : Command) (ws : List Word) :
    ws.any c.reads = c.letters.any fun letter => !(ws.filter (·.letter = letter)).isEmpty := by
  rw [Bool.eq_iff_iff]
  simp only [List.any_eq_true, Bool.not_eq_true', List.isEmpty_eq_false_iff_exists_mem,
    List.mem_filter, decide_eq_true_eq, reads_iff]
  constructor
  · rintro ⟨w, hw, hletter⟩
    exact ⟨w.letter, hletter, w, hw, rfl⟩
  · rintro ⟨letter, hletter, w, hw, rfl⟩
    exact ⟨w, hw, hletter⟩

/-- A feed rate is given by words with an F only. -/
theorem filter_setsFeed (ws : List Word) :
    (ws.filter (·.letter = 'F')).filter Word.setsFeed = ws.filter Word.setsFeed := by
  rw [List.filter_filter]
  apply List.filter_congr
  intro w _
  by_cases h : w.letter = 'F'
  · simp [h]
  · simp [Word.setsFeed_eq_false h]

/-- Of the words with a letter that is looked at, only the order among themselves
matters. -/
theorem told?_of_letters {c : Command} {ws ws' : List Word}
    (h : ∀ letter ∈ c.letters,
      ws'.filter (·.letter = letter) = ws.filter (·.letter = letter)) :
    c.told? ws' = c.told? ws := by
  have hlast : ∀ letter ∈ c.letters, lastOf? letter ws' = lastOf? letter ws := by
    intro letter hletter
    rw [lastOf?, lastOf?, lastValue?, lastValue?, h letter hletter]
  have hany : ws'.any c.reads = ws.any c.reads := by
    rw [any_reads_eq, any_reads_eq, Bool.eq_iff_iff, List.any_eq_true, List.any_eq_true]
    refine exists_congr fun letter => and_congr_right ?_
    intro hletter
    rw [h letter hletter]
  cases c with
  | move =>
    have hfeed : ws'.filter Word.setsFeed = ws.filter Word.setsFeed := by
      rw [← filter_setsFeed ws', h 'F' (by decide), filter_setsFeed]
    simp only [told?, moveTold, coordinatesTold, lastValue?, hfeed, hlast 'X' (by decide),
      hlast 'Y' (by decide), hlast 'Z' (by decide), hlast 'E' (by decide)]
  | setPosition =>
    simp only [told?, coordinatesTold, hany, hlast 'X' (by decide), hlast 'Y' (by decide),
      hlast 'Z' (by decide), hlast 'E' (by decide)]
  | pause => rfl
  | home => rfl
  | absolute => rfl
  | relative => rfl
  | release => rfl

/-- The words with a letter that is looked at are among those that are looked at. -/
theorem filter_letter_filter_reads {c : Command} {letter : Char} (h : letter ∈ c.letters)
    (ws : List Word) :
    (ws.filter c.reads).filter (·.letter = letter) = ws.filter (·.letter = letter) := by
  rw [List.filter_filter]
  apply List.filter_congr
  intro w _
  by_cases hw : w.letter = letter
  · simp [hw, reads, h]
  · simp [hw]

theorem find?_refuses_filter_reads (c : Command) (ws : List Word) :
    (ws.filter c.reads).find? c.refuses = ws.find? c.refuses := by
  rw [List.find?_filter]
  refine congrArg (List.find? · ws) (funext ?_)
  intro w
  rw [Bool.eq_iff_iff, decide_eq_true_eq]
  exact and_iff_right_of_imp reads_of_refuses

/-- At most one word has a letter that no two words share. -/
theorem length_filter_letter_le_one {ws : List Word} (h : (ws.map Word.letter).Nodup)
    (letter : Char) : (ws.filter (·.letter = letter)).length ≤ 1 := by
  have hsub : ((ws.filter (·.letter = letter)).map Word.letter).Nodup :=
    h.sublist (List.filter_sublist.map Word.letter)
  have hsame : (ws.filter (·.letter = letter)).map Word.letter =
      List.replicate (ws.filter (·.letter = letter)).length letter := by
    rw [List.eq_replicate_iff, List.length_map]
    refine ⟨rfl, ?_⟩
    intro c hc
    obtain ⟨w, hw, rfl⟩ := List.mem_map.mp hc
    simpa using (List.mem_filter.mp hw).2
  rw [hsame] at hsub
  exact List.nodup_replicate.mp hsub

/-- Words that share no letter may stand in any order. -/
theorem filter_letter_of_perm {c : Command} {ws ws' : List Word} (hperm : ws'.Perm ws)
    (h : ((ws.filter c.reads).map Word.letter).Nodup) {letter : Char}
    (hletter : letter ∈ c.letters) :
    ws'.filter (·.letter = letter) = ws.filter (·.letter = letter) := by
  have hshort := length_filter_letter_le_one h letter
  rw [filter_letter_filter_reads hletter] at hshort
  have hsame := hperm.filter (·.letter = letter)
  cases hws : ws.filter (·.letter = letter) with
  | nil =>
    rw [hws] at hsame
    exact hsame.eq_nil
  | cons w rest =>
    rw [hws] at hshort hsame
    obtain rfl : rest = [] := List.length_eq_zero_iff.mp (by simpa using hshort)
    exact hsame.eq_singleton

theorem find?_refuses_of_perm {c : Command} {ws ws' : List Word} (hperm : ws'.Perm ws)
    (h : ws.find? c.refuses = none) : ws'.find? c.refuses = none := by
  rw [find?_refuses_eq_none_iff] at h ⊢
  intro w hw
  exact h w (hperm.subset hw)

end Command

/-! ### Lines -/

/-- The instruction of a line with a command of the table. -/
theorem ofLine?_of_command {line : String} {w : Word} {params : List Word} {c : Command}
    (hline : dropLineNumber (wordsOfLine line.toList) = w :: params)
    (hw : Command.ofWord? w = some c) :
    Instruction.ofLine? line = some <$> c.instruction params := by
  rw [Instruction.ofLine?, instructionOf?, hline]
  simp only [hw]
  rfl

end Gcode

/-- **What the words of a move or of new coordinates say.**  The first word with a letter
that is looked at and without a finite number is refused as it stands.  Otherwise each
coordinate has the value of the last word with its letter, the feed rate that of the last F
which is not zero, and what no word gives is left out; new coordinates that no word gives
are all zero.  Words that are not looked at change nothing, and an accepted line means the
same with its words in another order when no two of those looked at share a letter. -/
theorem Instruction.ofLine?_eq_told? {line : String} {w : Gcode.Word}
    {params : List Gcode.Word} {c : Gcode.Command}
    (hline : Gcode.dropLineNumber (Gcode.wordsOfLine line.toList) = w :: params)
    (hw : Gcode.Command.ofWord? w = some c) (hc : c = .move ∨ c = .setPosition) :
    (ofLine? line =
      match params.find? c.refuses with
      | some u => .error u.fault
      | none => .ok (c.told? params)) ∧
    (params.find? c.refuses = none →
      (∀ letter ∈ c.letters,
        Gcode.lastOf? letter params = none ↔ ∀ u ∈ params, u.letter ≠ letter) ∧
      (Gcode.lastValue? Gcode.Word.setsFeed params = none ↔ ∀ u ∈ params, ¬u.setsFeed)) ∧
    ∀ line' w' params',
      Gcode.dropLineNumber (Gcode.wordsOfLine line'.toList) = w' :: params' →
      Gcode.Command.ofWord? w' = some c →
      (params'.filter c.reads = params.filter c.reads → ofLine? line' = ofLine? line) ∧
      (params'.Perm params → ((params.filter c.reads).map Gcode.Word.letter).Nodup →
        ∀ found, ofLine? line = .ok found → ofLine? line' = .ok found) := by
  have hread : ∀ {line' w' params'},
      Gcode.dropLineNumber (Gcode.wordsOfLine line'.toList) = w' :: params' →
      Gcode.Command.ofWord? w' = some c →
      ofLine? line' =
        match params'.find? c.refuses with
        | some u => .error u.fault
        | none => .ok (c.told? params') := by
    intro line' w' params' hline' hw'
    rw [Gcode.ofLine?_of_command hline' hw', Gcode.Command.instruction_eq_told? hc]
  refine ⟨hread hline hw, fun hvalues => ⟨?_, ?_⟩, fun line' w' params' hline' hw' => ⟨?_, ?_⟩⟩
  · intro letter hletter
    rw [Gcode.Command.find?_refuses_eq_none_iff] at hvalues
    rw [Gcode.lastOf?, Gcode.lastValue?_eq_none_iff fun u hu hchosen =>
      hvalues u hu (by simp_all)]
    simp
  · refine Gcode.lastValue?_eq_none_iff fun u _ hfeed hnone => ?_
    simp [Gcode.Word.setsFeed, hnone] at hfeed
  · intro hsame
    have htold : c.told? params' = c.told? params :=
      Gcode.Command.told?_of_letters fun letter hletter => by
        rw [← Gcode.Command.filter_letter_filter_reads hletter, hsame,
          Gcode.Command.filter_letter_filter_reads hletter]
    rw [hread hline' hw', hread hline hw, ← Gcode.Command.find?_refuses_filter_reads,
      hsame, Gcode.Command.find?_refuses_filter_reads, htold]
  · intro hperm hdistinct found hfound
    rw [hread hline hw] at hfound
    cases hrefused : params.find? c.refuses with
    | some u =>
      rw [hrefused] at hfound
      cases hfound
    | none =>
      rw [hrefused] at hfound
      have htold : c.told? params' = c.told? params :=
        Gcode.Command.told?_of_letters fun letter hletter =>
          Gcode.Command.filter_letter_of_perm hperm hdistinct hletter
      rw [hread hline' hw', Gcode.Command.find?_refuses_of_perm hperm hrefused, htold]
      exact hfound

/-- A numbered line with two feed rates and a word that no command looks at. -/
theorem Instruction.ofLine?_of_two_feeds :
    ofLine? "N7 g1 X1 Q x2 F600 F0" =
      .ok (some (.move ⟨⟨some 2, none, none, none⟩, some 10⟩)) := by
  have hline : Gcode.dropLineNumber (Gcode.wordsOfLine "N7 g1 X1 Q x2 F600 F0".toList) =
      [⟨'g', ['1']⟩, ⟨'X', ['1']⟩, ⟨'Q', []⟩, ⟨'x', ['2']⟩, ⟨'F', ['6', '0', '0']⟩,
        ⟨'F', ['0']⟩] := by decide
  refine (ofLine?_eq_told? hline (by decide) (.inl rfl)).1.trans ?_
  decide +kernel

end TachoPrint
