import ShellTree.Proofs.ManyLines
import ShellTree.Proofs.OneLine
import ShellTree.Proofs.Openings

/-!
# One text in two layouts

The broken layout and the flat one differ by line breaks, by indentation, and by the `;` that a line
break stands in for at the end of a group. So rejoining the lines of the first gives the second, as
long as the texts that a tree takes from outside cannot be taken for the layout: such a text must not
break a line, nor begin one with a space or a brace, nor end one with `&`.

Reading a node leaves what is read behind it untouched, so each node is read in front of any rest. All
that is handed on is whether the last character was `&`, which only matters behind the last list of a
group.
-/

namespace ShellTree

/-- The characters that line breaks and the ends of lists are told by. -/
def lineMarks : List Char := [' ', '\n', '\x7d', '&']

theorem not_mem_lineMarks {c : Char} : c ∉ lineMarks ↔ c ≠ ' ' ∧ c ≠ '\n' ∧ c ≠ '\x7d' ∧ c ≠ '&' := by
  simp [lineMarks]

theorem simpleText_inline {assignments : List Assignment} {words : List Word} {location : Location}
    (meets : (Command.simple assignments words location).Meets (Shows lineMarks)) :
    ∀ c ∈ (simpleText assignments words).toList, c ≠ '\n' ∧ c ≠ '&' := by
  intro c member
  rcases (simpleText_of_shows (by decide) meets).2 c member with rfl | apart
  · decide
  · obtain ⟨_, inline, _, plain⟩ := not_mem_lineMarks.mp apart
    exact ⟨inline, plain⟩

/-! ## Reading the broken layout -/

/-- Whether a list is ended by `&`. -/
def Terminator.isAsync : Terminator → Bool
  | .sequential => false
  | .asynchronous => true

/-- Whether the last of several lists is ended by `&`. -/
def AndOr.endsAsync : List AndOr → Bool
  | [] => false
  | [list] => list.terminator.isAsync
  | _ :: next :: rest => AndOr.endsAsync (next :: rest)

/-- What the last list leaves pending is what a line break in front of a closing brace is read as. -/
theorem AndOr.toList_leftOf : ∀ {lists : List AndOr}, lists ≠ [] →
    (AndOr.leftOf lists).toList = bif AndOr.endsAsync lists then [' '] else [';', ' ']
  | [], nonempty => absurd rfl nonempty
  | [list], _ => by
    rw [leftOf, endsAsync]
    cases list.terminator <;> decide
  | _ :: next :: rest, _ => by
    rw [leftOf, endsAsync, AndOr.toList_leftOf (List.cons_ne_nil next rest)]

theorem AndOr.flatList_brace {lists : List AndOr} (nonempty : lists ≠ []) (rest : List Char) :
    (AndOr.flatList Terminator.endMark lists).toList ++
        ((bif AndOr.endsAsync lists then [' '] else [';', ' ']) ++ '\x7d' :: rest) =
      (AndOr.flatList Terminator.mark lists).toList ++ ' ' :: '\x7d' :: rest := by
  have same := AndOr.flatList_endMark_append nonempty (String.ofList ('\x7d' :: rest))
  have chars := congrArg String.toList same
  simpa [AndOr.toList_leftOf nonempty] using chars

/-- Behind either operator the line goes on with a pipeline, which asks for no `;`, and so it does not
matter that one of the two ends in `&`. -/
theorem Connective.unbroken_break (connective : Connective) (count : Nat) {rest : List Char} (opens : Opens rest) :
    unbroken false (' ' :: (connective.operator.toList ++ '\n' :: (List.replicate count ' ' ++ rest))) =
      ' ' :: (connective.operator.toList ++ ' ' :: unbroken false rest) := by
  cases connective <;> simp [operator, unbroken_cons, unbroken_newline count opens]

mutual

/-- A broken command is read as the flat one. The induction is on the tree; the levels and what is read
behind the node are left open, and so is the character in front. -/
theorem Command.unbroken_broken : ∀ {command : Command}, command.Meets (Shows lineMarks) →
    ∀ (level line : Nat) (ampersand : Bool) (rest : List Char),
    unbroken ampersand ((command.broken level line).text.toList ++ rest) =
      command.flat.toList ++ unbroken false rest
  | .simple assignments words location, meets, level, line, ampersand, rest => by
    obtain ⟨c, others, chars, _⟩ := simpleText_opens (by decide) meets
    exact unbroken_append (chars.trans_ne (List.cons_ne_nil c others)) (simpleText_inline meets)
  | .group body location, meets, level, line, ampersand, rest => by
    obtain ⟨nonempty, meets⟩ := Command.meets_group.mp meets
    have opens := AndOr.opens_brokenList (by decide) nonempty meets (line + 1) (line + 1)
    have text : ((Command.group body location).broken level line).text.toList ++ rest =
        '\x7b' :: '\n' :: (List.replicate (indentWidth * (line + 1)) ' ' ++
          ((AndOr.brokenList (line + 1) body (line + 1)).text.toList ++
            '\n' :: (List.replicate (indentWidth * line) ' ' ++ '\x7d' :: rest))) := by
      simp [Command.broken, Laid.andThen, Laid.inline, Laid.newline, Laid.close]
    have flat : (Command.group body location).flat.toList ++ unbroken false rest =
        '\x7b' :: ' ' :: ((AndOr.flatList Terminator.mark body).toList ++
          ' ' :: '\x7d' :: unbroken false rest) := by
      simp [Command.toList_flat_group]
    rw [text, flat, unbroken_cons (by decide), unbroken_newline _ (opens.append _),
      AndOr.unbroken_brokenList nonempty meets, unbroken_newline_brace, AndOr.flatList_brace nonempty]
  | .subshell body location, meets, level, line, ampersand, rest => by
    obtain ⟨nonempty, meets⟩ := Command.meets_subshell.mp meets
    have text : ((Command.subshell body location).broken level line).text.toList ++ rest =
        '(' :: ((AndOr.brokenList level body line).text.toList ++ ')' :: rest) := by
      simp [Command.broken, Laid.close]
    have flat : (Command.subshell body location).flat.toList ++ unbroken false rest =
        '(' :: ((AndOr.flatList Terminator.endMark body).toList ++ ')' :: unbroken false rest) := by
      simp [Command.toList_flat_subshell]
    rw [text, flat, unbroken_cons (by decide), AndOr.unbroken_brokenList nonempty meets, unbroken_cons (by decide)]
    rfl

theorem Pipeline.unbroken_broken : ∀ {pipeline : Pipeline}, pipeline.Meets (Shows lineMarks) →
    ∀ (level line : Nat) (ampersand : Bool) (rest : List Char),
    unbroken ampersand ((pipeline.broken level line).text.toList ++ rest) =
      pipeline.flat.toList ++ unbroken false rest
  | .mk negated [], meets, _, _, _, _ => by simp at meets
  | .mk negated (command :: others), meets, level, line, ampersand, rest => by
    obtain ⟨_, meets⟩ := Pipeline.meets_mk.mp meets
    rw [List.forall_mem_cons] at meets
    have piped (ampersand : Bool) : unbroken ampersand
        ((Command.brokenPiped level (command :: others) line).text.toList ++ rest) =
          (Command.flatPiped (command :: others)).toList ++ unbroken false rest := by
      simp only [Command.brokenPiped, Command.flatPiped, Laid.andThen, String.toList_append, List.append_assoc]
      rw [Command.unbroken_broken meets.1, Command.unbroken_brokenTail meets.2]
    cases negated with
    | false => simpa [Pipeline.broken, Pipeline.flat, negationText] using piped ampersand
    | true => simp [Pipeline.broken, Pipeline.flat, negationText, unbroken_cons, piped]

theorem Command.unbroken_brokenTail : ∀ {commands : List Command},
    (∀ command ∈ commands, command.Meets (Shows lineMarks)) → ∀ (level line : Nat) (rest : List Char),
    unbroken false ((Command.brokenTail level commands line).text.toList ++ rest) =
      (Command.flatTail commands).toList ++ unbroken false rest
  | [], _, level, line, rest => rfl
  | command :: others, meets, level, line, rest => by
    rw [List.forall_mem_cons] at meets
    have text : (Command.brokenTail level (command :: others) line).text.toList ++ rest =
        ' ' :: '|' :: ' ' :: ((command.broken level line).text.toList ++
          ((Command.brokenTail level others (command.broken level line).line).text.toList ++ rest)) := by
      simp [Command.brokenTail, Laid.andThen, Laid.inline]
    rw [text, unbroken_cons (by decide), unbroken_cons (by decide), unbroken_cons (by decide),
      Command.unbroken_broken meets.1, Command.unbroken_brokenTail meets.2]
    simp [Command.flatTail]

theorem Link.unbroken_brokenList : ∀ {links : List Link}, (∀ link ∈ links, link.Meets (Shows lineMarks)) →
    ∀ (level line : Nat) (rest : List Char),
    unbroken false ((Link.brokenList level links line).text.toList ++ rest) =
      (Link.flatList links).toList ++ unbroken false rest
  | [], _, level, line, rest => rfl
  | .mk connective pipeline :: others, meets, level, line, rest => by
    simp only [List.forall_mem_cons, Link.meets_mk] at meets
    have opens := Pipeline.opens_broken (by decide) meets.1 (level + 1) level
    have text : (Link.brokenList level (.mk connective pipeline :: others) line).text.toList ++ rest =
        ' ' :: (connective.operator.toList ++ '\n' :: (List.replicate (indentWidth * level) ' ' ++
          ((pipeline.broken (level + 1) level).text.toList ++
            ((Link.brokenList level others (pipeline.broken (level + 1) level).line).text.toList ++ rest)))) := by
      simp [Link.brokenList, Link.broken, Laid.andThen, Laid.inline, Laid.newline]
    rw [text, Connective.unbroken_break _ _ (opens.append _), Pipeline.unbroken_broken meets.1,
      Link.unbroken_brokenList meets.2]
    simp [Link.flatList, Link.flat]

theorem AndOr.unbroken_broken : ∀ {list : AndOr}, list.Meets (Shows lineMarks) →
    ∀ (level line : Nat) (ampersand : Bool) (rest : List Char),
    unbroken ampersand ((list.broken level line).text.toList ++ rest) = list.flat.toList ++ unbroken false rest
  | .mk first links terminator, meets, level, line, ampersand, rest => by
    rw [AndOr.meets_mk] at meets
    simp only [AndOr.broken, AndOr.flat, Laid.andThen, String.toList_append, List.append_assoc]
    rw [Pipeline.unbroken_broken meets.1, Link.unbroken_brokenList meets.2]

/-- Lists are read as on one line, and tell what is behind them whether the last one is asynchronous. -/
theorem AndOr.unbroken_brokenList : ∀ {lists : List AndOr}, lists ≠ [] →
    (∀ list ∈ lists, list.Meets (Shows lineMarks)) → ∀ (level line : Nat) (ampersand : Bool) (rest : List Char),
    unbroken ampersand ((AndOr.brokenList level lists line).text.toList ++ rest) =
      (AndOr.flatList Terminator.endMark lists).toList ++ unbroken (AndOr.endsAsync lists) rest
  | [], nonempty, _, _, _, _, _ => absurd rfl nonempty
  | [list], _, meets, level, line, ampersand, rest => by
    have ended : unbroken false (list.terminator.endMark.toList ++ rest) =
        list.terminator.endMark.toList ++ unbroken list.terminator.isAsync rest := by
      cases list.terminator <;> simp [Terminator.endMark, Terminator.isAsync, unbroken_cons]
    simp only [AndOr.brokenList, AndOr.flatList, AndOr.endsAsync, Laid.close, String.toList_append, List.append_assoc]
    rw [AndOr.unbroken_broken (meets list List.mem_cons_self), ended]
  | list :: next :: others, _, meets, level, line, ampersand, rest => by
    rw [List.forall_mem_cons] at meets
    have ended (more : List Char) : unbroken false (list.terminator.mark.toList ++ (" ".toList ++ more)) =
        list.terminator.mark.toList ++ (" ".toList ++ unbroken false more) := by
      cases list.terminator <;> simp [Terminator.mark, unbroken_cons]
    simp only [AndOr.brokenList, AndOr.flatList, AndOr.endsAsync, Laid.close, Laid.andThen, String.toList_append,
      List.append_assoc]
    rw [AndOr.unbroken_broken meets.1, ended, AndOr.unbroken_brokenList (List.cons_ne_nil next others) meets.2]

end

/-- The lines of a broken layout, put on one, are the flat layout. -/
theorem Script.rejoined_broken {script : Script} (meets : ∀ list ∈ script, list.Meets (Shows lineMarks)) :
    rejoined script.broken = script.flat := by
  cases script with
  | nil => rfl
  | cons list rest =>
    have whole := AndOr.unbroken_brokenList (List.cons_ne_nil list rest) meets 0 0 false []
    rw [List.append_nil, unbroken, List.append_nil] at whole
    rw [rejoined_eq_unbroken, Script.broken, whole, String.ofList_toList]
    rfl

/-- The two modes lay out the same text: where no word is invisible and no word, name or value has a
character that the layout could be taken for, the text on several lines is the text on one line once
its lines are rejoined. Both texts exist if there are fewer links and groups than there are levels. -/
theorem Script.rejoined_source_multi {script : Script} (complete : script.issues = [])
    (words : ∀ word ∈ script.words, word.text ≠ "" ∧ Avoids lineMarks word.text)
    (assignments : ∀ assignment ∈ script.assignments,
      Avoids lineMarks assignment.name ∧ Avoids lineMarks assignment.value.text) :
    (∀ broken flat, script.source .multi = .ok broken → script.source .single = .ok flat →
      rejoined broken = flat) ∧
      (script.breaks < 2 ^ 62 →
        ∃ broken, script.source .multi = .ok broken ∧ script.source .single = .ok (rejoined broken)) := by
  have meets : ∀ list ∈ script, list.Meets (Shows lineMarks) := meets_of_forall complete words assignments
  have same : ∀ broken flat, script.source .multi = .ok broken → script.source .single = .ok flat →
      rejoined broken = flat := by
    intro broken flat multi single
    rw [eq_broken_of_source complete multi, eq_flat_of_source complete single, rejoined_broken meets]
  refine ⟨same, fun room => ?_⟩
  obtain ⟨broken, multi⟩ := exists_source (show script.breaks < LineMode.multi.levelLimit from room)
  obtain ⟨flat, single⟩ :=
    exists_source (show script.breaks < LineMode.single.levelLimit from room.trans (by decide))
  refine ⟨broken, multi, ?_⟩
  rw [same broken flat multi single, single]

/-- A group whose body ends in `;` and one whose body ends in `&`, the second inside the first. -/
theorem Script.rejoined_source_groups :
    let word (text : String) : Command := .simple [⟨"x", .literal text⟩] [.literal text] {}
    let waiting : Command := .group [.mk (.mk false [word "b"]) [] .asynchronous] {}
    let script : Script := [.mk (.mk false [.group [.mk (.mk false [word "a"])
      [.mk .andThen (.mk true [waiting])] .sequential] {}]) [] .sequential]
    ∃ broken, script.source .multi = .ok broken ∧
      broken = "\x7b\n    x=a a &&\n    ! \x7b\n        x=b b&\n    \x7d\n\x7d" ∧
      rejoined broken = "\x7b x=a a && ! \x7b x=b b& \x7d; \x7d" ∧
      script.source .single = .ok (rejoined broken) := by
  intro word waiting script
  have complete : script.issues = [] := by decide
  obtain ⟨broken, multi, single⟩ := (Script.rejoined_source_multi complete (by decide) (by decide)).2 (by decide)
  have text : broken = "\x7b\n    x=a a &&\n    ! \x7b\n        x=b b&\n    \x7d\n\x7d" := by
    rw [Script.eq_broken_of_source complete multi]
    decide
  refine ⟨broken, multi, text, ?_, single⟩
  rw [text]
  decide

end ShellTree
