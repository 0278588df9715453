import ShellTree.Proofs.PlainParts
import ShellTree.Proofs.Rejoining

/-!
# Texts that determine their trees

In front of anything that can follow it, the flat layout of a node determines the node, up to locations
and the division of words, and where its text ends. What follows tells each time how the node goes on:
a pipe, a link, another list, or none of them. The `;` of a last list may be missing, so each way to
write the end of a body has to say what can stand behind it.

Broken layouts determine their trees because their lines can be rejoined.
-/

namespace ShellTree

/-! ## How nodes begin -/

theorem Command.head_simple {assignments : List Assignment} {words : List Word} {location : Location}
    (meets : (Command.simple assignments words location).Meets PlainTexts) :
    ∃ c rest, (Command.simple assignments words location).flat.toList = c :: rest ∧ c ∉ partMarks :=
  (simpleText_of_shows (by decide) (meets.imp fun _ => PlainTexts.shows)).1

/-- A command opens a line, and is not taken for a negation. -/
theorem Command.head_flat {command : Command} (meets : command.Meets PlainTexts) :
    ∃ c rest, command.flat.toList = c :: rest ∧ c ∉ [' ', '\x7d', '!'] := by
  cases command with
  | simple assignments words location =>
    obtain ⟨c, rest, chars, apart⟩ := Command.head_simple meets
    have fewer : [' ', '\x7d', '!'] ⊆ partMarks := by decide
    exact ⟨c, rest, chars, fun member => apart (fewer member)⟩
  | group body location => exact ⟨_, _, Command.toList_flat_group, by decide⟩
  | subshell body location => exact ⟨_, _, Command.toList_flat_subshell, by decide⟩

theorem Pipeline.opens_flat {pipeline : Pipeline} (meets : pipeline.Meets PlainTexts) : Opens pipeline.flat.toList := by
  obtain ⟨negated, commands⟩ := pipeline
  obtain ⟨nonempty, complete⟩ := Pipeline.meets_mk.mp meets
  cases negated with
  | true => simp [Pipeline.flat, negationText, opens_cons]
  | false =>
    obtain ⟨command, others, rfl⟩ := List.exists_cons_of_ne_nil nonempty
    obtain ⟨c, rest, chars, apart⟩ := Command.head_flat (complete command List.mem_cons_self)
    simp only [List.mem_cons, List.not_mem_nil, or_false, not_or] at apart
    simp [Pipeline.flat, negationText, Command.flatPiped, chars, opens_cons apart.1 apart.2.1]

theorem AndOr.opens_flatList {lists : List AndOr} (nonempty : lists ≠ [])
    (meets : ∀ list ∈ lists, list.Meets PlainTexts) (last : Terminator → String) :
    Opens (AndOr.flatList last lists).toList := by
  obtain ⟨⟨first, links, terminator⟩, others, rfl⟩ := List.exists_cons_of_ne_nil nonempty
  have opens := Pipeline.opens_flat (AndOr.meets_mk.mp (meets _ List.mem_cons_self)).1
  cases others with
  | nil => simpa [AndOr.flatList, AndOr.flat] using opens.append _
  | cons next others => simpa [AndOr.flatList, AndOr.flat] using opens.append _

/-- A negation is told from a command, which does not begin with its mark. -/
theorem negationText_append_inj {negated negated' : Bool} {text text' rest rest' : List Char}
    (head : ∃ c more, text = c :: more ∧ c ∉ [' ', '\x7d', '!'])
    (head' : ∃ c more, text' = c :: more ∧ c ∉ [' ', '\x7d', '!'])
    (same : (negationText negated).toList ++ (text ++ rest) = (negationText negated').toList ++ (text' ++ rest')) :
    negated = negated' ∧ text ++ rest = text' ++ rest' := by
  obtain ⟨c, more, rfl, apart⟩ := head
  obtain ⟨c', more', rfl, apart'⟩ := head'
  simp only [List.mem_cons, List.not_mem_nil, or_false, not_or] at apart apart'
  cases negated with
  | true =>
    cases negated' with
    | true => simpa [negationText] using same
    | false => exact absurd (List.cons.inj same).1.symm apart'.2.2
  | false =>
    cases negated' with
    | true => exact absurd (List.cons.inj same).1 apart.2.2
    | false => exact ⟨rfl, same⟩

/-! ## How nodes end -/

theorem Command.ends_flatTail (commands : List Command) {rest : List Char} (ends : EndsPipeline rest) :
    EndsCommand ((Command.flatTail commands).toList ++ rest) := by
  cases commands with
  | nil => exact .pipeline ends
  | cons command others => simpa [Command.flatTail] using EndsCommand.pipe

theorem Link.ends_flatList (links : List Link) {rest : List Char} (ends : EndsList rest) :
    EndsPipeline ((Link.flatList links).toList ++ rest) := by
  cases links with
  | nil => exact .list ends
  | cons link others =>
    obtain ⟨connective, pipeline⟩ := link
    simpa [Link.flatList, Link.flat] using EndsPipeline.link

/-- A pipe goes on with a pipeline. -/
theorem EndsPipeline.ne_pipe {rest : List Char} (ends : EndsPipeline rest) (more : List Char) :
    rest ≠ ' ' :: '|' :: ' ' :: more := by
  rintro rfl
  generalize whole : ' ' :: '|' :: ' ' :: more = text at ends
  cases ends with
  | @link connective => cases connective <;> simp [Connective.operator] at whole
  | list ends => exact ends.ne_space _ whole.symm

/-- A way to end the last of several lists, and what can follow it there: behind each list it can be
told whether another one follows, and how the list is ended. -/
structure Delimits (last : Terminator → String) (ends : List Char → Prop) : Prop where
  endsList {terminator : Terminator} {rest : List Char} :
    ends rest → EndsList ((last terminator).toList ++ rest)
  determined {terminator terminator' : Terminator} {rest rest' : List Char} : ends rest → ends rest' →
    (last terminator).toList ++ rest = (last terminator').toList ++ rest' → terminator = terminator' ∧ rest = rest'
  apart {terminator terminator' : Terminator} {rest next : List Char} : ends rest → Opens next →
    (last terminator).toList ++ rest ≠ terminator'.mark.toList ++ ' ' :: next

theorem Terminator.ends_mark (terminator : Terminator) (rest : List Char) :
    EndsList (terminator.mark.toList ++ rest) := by
  cases terminator <;> exact .mark (by decide)

theorem Terminator.mark_append_inj {terminator terminator' : Terminator} {rest rest' : List Char}
    (same : terminator.mark.toList ++ rest = terminator'.mark.toList ++ rest') :
    terminator = terminator' ∧ rest = rest' := by
  cases terminator <;> cases terminator' <;> simp_all [mark]

theorem Connective.operator_append_inj {connective connective' : Connective} {rest rest' : List Char}
    (same : connective.operator.toList ++ rest = connective'.operator.toList ++ rest') :
    connective = connective' ∧ rest = rest' := by
  cases connective <;> cases connective' <;> simp_all [operator]

/-- In a group the last list has its mark, and the closing brace stands apart. -/
theorem delimits_mark : Delimits Terminator.mark fun rest => ∃ more, rest = ' ' :: '\x7d' :: more where
  endsList _ := Terminator.ends_mark _ _
  determined _ _ same := Terminator.mark_append_inj same
  apart := by
    rintro terminator terminator' rest next ⟨more, rfl⟩ ⟨c, others, rfl, _, noBrace⟩ same
    obtain ⟨_, same⟩ := Terminator.mark_append_inj same
    simp only [List.cons.injEq, true_and] at same
    exact noBrace same.1.symm

/-- Elsewhere a last list that is sequential has no mark, and is followed by nothing or a parenthesis. -/
theorem delimits_endMark : Delimits Terminator.endMark fun rest => rest = [] ∨ ∃ more, rest = ')' :: more where
  endsList := by
    rintro terminator rest ends
    cases terminator with
    | asynchronous => exact .mark (by decide)
    | sequential =>
      rcases ends with rfl | ⟨more, rfl⟩
      · exact .nil
      · exact .mark (by decide)
  determined := by
    rintro terminator terminator' rest rest' ends ends' same
    rcases ends with rfl | ⟨more, rfl⟩ <;> rcases ends' with rfl | ⟨more', rfl⟩ <;>
      cases terminator <;> cases terminator' <;> simp_all [Terminator.endMark]
  apart := by
    rintro terminator terminator' rest next ends _ same
    rcases ends with rfl | ⟨more, rfl⟩ <;>
      cases terminator <;> cases terminator' <;> simp_all [Terminator.endMark, Terminator.mark]

/-! ## Nodes and their texts -/

theorem AndOr.bare_eq_of_parts {list other : AndOr} (first : list.first.bare = other.first.bare)
    (links : Link.bareList list.links = Link.bareList other.links) (terminator : list.terminator = other.terminator) :
    list.bare = other.bare := by
  obtain ⟨_, _, _⟩ := list
  obtain ⟨_, _, _⟩ := other
  simpa [AndOr.bare] using ⟨first, links, terminator⟩

mutual

/-- A plain command is determined by its flat text in front of anything that can follow it. The
induction is on the first of the two trees. -/
theorem Command.flat_append_inj : ∀ {command other : Command} {rest rest' : List Char},
    command.Meets PlainTexts → other.Meets PlainTexts → EndsCommand rest → EndsCommand rest' →
    command.flat.toList ++ rest = other.flat.toList ++ rest' → command.bare = other.bare ∧ rest = rest'
  | .simple assignments words location, other, rest, rest', meets, meets', ends, ends', same => by
    obtain ⟨c, text, chars, apart⟩ := Command.head_simple meets
    cases other with
    | simple assignments' words' location' =>
      obtain ⟨complete, plain⟩ := Command.meets_simple.mp meets
      obtain ⟨complete', plain'⟩ := Command.meets_simple.mp meets'
      obtain ⟨parts, rfl⟩ := intercalate_append_inj (Command.texts_ne_nil complete) (Command.texts_ne_nil complete')
        (texts_of_shows (by decide) plain.shows) (texts_of_shows (by decide) plain'.shows) ends ends' same
      obtain ⟨bare, bare'⟩ := parts_inj plain plain' parts
      exact ⟨by rw [Command.bare, Command.bare, bare, bare'], rfl⟩
    | group body' location' =>
      rw [chars, Command.toList_flat_group] at same
      exact absurd (List.cons.inj same).1 (ne_of_mem_of_not_mem (by decide) apart).symm
    | subshell body' location' =>
      rw [chars, Command.toList_flat_subshell] at same
      exact absurd (List.cons.inj same).1 (ne_of_mem_of_not_mem (by decide) apart).symm
  | .group body location, other, rest, rest', meets, meets', _, _, same => by
    cases other with
    | simple assignments' words' location' =>
      obtain ⟨c, text, chars, apart⟩ := Command.head_simple meets'
      rw [chars, Command.toList_flat_group] at same
      exact absurd (List.cons.inj same).1 (ne_of_mem_of_not_mem (by decide) apart)
    | group body' location' =>
      obtain ⟨nonempty, meets⟩ := Command.meets_group.mp meets
      obtain ⟨nonempty', meets'⟩ := Command.meets_group.mp meets'
      simp only [Command.toList_flat_group, List.cons_append, List.append_assoc, List.nil_append, List.cons.injEq,
        true_and] at same
      obtain ⟨bare, behind⟩ := AndOr.flatList_append_inj delimits_mark nonempty nonempty' meets meets' ⟨_, rfl⟩
        ⟨_, rfl⟩ same
      simp only [List.cons.injEq, true_and] at behind
      exact ⟨by rw [Command.bare, Command.bare, bare], behind⟩
    | subshell body' location' =>
      rw [Command.toList_flat_group, Command.toList_flat_subshell] at same
      exact absurd (List.cons.inj same).1 (by decide)
  | .subshell body location, other, rest, rest', meets, meets', _, _, same => by
    cases other with
    | simple assignments' words' location' =>
      obtain ⟨c, text, chars, apart⟩ := Command.head_simple meets'
      rw [chars, Command.toList_flat_subshell] at same
      exact absurd (List.cons.inj same).1 (ne_of_mem_of_not_mem (by decide) apart)
    | group body' location' =>
      rw [Command.toList_flat_group, Command.toList_flat_subshell] at same
      exact absurd (List.cons.inj same).1 (by decide)
    | subshell body' location' =>
      obtain ⟨nonempty, meets⟩ := Command.meets_subshell.mp meets
      obtain ⟨nonempty', meets'⟩ := Command.meets_subshell.mp meets'
      simp only [Command.toList_flat_subshell, List.cons_append, List.append_assoc, List.nil_append, List.cons.injEq,
        true_and] at same
      obtain ⟨bare, behind⟩ := AndOr.flatList_append_inj delimits_endMark nonempty nonempty' meets meets'
        (.inr ⟨_, rfl⟩) (.inr ⟨_, rfl⟩) same
      simp only [List.cons.injEq, true_and] at behind
      exact ⟨by rw [Command.bare, Command.bare, bare], behind⟩
termination_by structural command => command

theorem Pipeline.flat_append_inj : ∀ {pipeline other : Pipeline} {rest rest' : List Char},
    pipeline.Meets PlainTexts → other.Meets PlainTexts → EndsPipeline rest → EndsPipeline rest' →
    pipeline.flat.toList ++ rest = other.flat.toList ++ rest' → pipeline.bare = other.bare ∧ rest = rest'
  | .mk negated [], _, _, _, meets, _, _, _, _ => by simp at meets
  | .mk negated (command :: commands), .mk negated' commands', rest, rest', meets, meets', ends, ends', same => by
    obtain ⟨_, complete⟩ := Pipeline.meets_mk.mp meets
    obtain ⟨nonempty', complete'⟩ := Pipeline.meets_mk.mp meets'
    obtain ⟨command', commands', rfl⟩ := List.exists_cons_of_ne_nil nonempty'
    rw [List.forall_mem_cons] at complete complete'
    obtain ⟨rfl, piped⟩ := negationText_append_inj (Command.head_flat complete.1) (Command.head_flat complete'.1)
      (by simpa [Pipeline.flat, Command.flatPiped] using same)
    obtain ⟨bare, tail⟩ := Command.flat_append_inj complete.1 complete'.1 (Command.ends_flatTail commands ends)
      (Command.ends_flatTail commands' ends') piped
    obtain ⟨bares, behind⟩ := Command.flatTail_append_inj complete.2 complete'.2 ends ends' tail
    exact ⟨by rw [Pipeline.bare, Pipeline.bare, Command.bareList, Command.bareList, bare, bares], behind⟩
termination_by structural pipeline => pipeline

theorem Command.flatTail_append_inj : ∀ {commands others : List Command} {rest rest' : List Char},
    (∀ command ∈ commands, command.Meets PlainTexts) → (∀ command ∈ others, command.Meets PlainTexts) →
    EndsPipeline rest → EndsPipeline rest' →
    (Command.flatTail commands).toList ++ rest = (Command.flatTail others).toList ++ rest' →
    Command.bareList commands = Command.bareList others ∧ rest = rest'
  | [], [], rest, rest', _, _, _, _, same => ⟨rfl, same⟩
  | [], command' :: others', rest, rest', _, _, ends, _, same => by
    have pipe : rest = ' ' :: '|' :: ' ' ::
        (command'.flat.toList ++ ((Command.flatTail others').toList ++ rest')) := by
      simpa [Command.flatTail] using same
    exact absurd pipe (ends.ne_pipe _)
  | command :: others, [], rest, rest', _, _, _, ends', same => by
    have pipe : rest' = ' ' :: '|' :: ' ' ::
        (command.flat.toList ++ ((Command.flatTail others).toList ++ rest)) := by
      simpa [Command.flatTail] using same.symm
    exact absurd pipe (ends'.ne_pipe _)
  | command :: others, command' :: others', rest, rest', meets, meets', ends, ends', same => by
    rw [List.forall_mem_cons] at meets meets'
    have piped : command.flat.toList ++ ((Command.flatTail others).toList ++ rest) =
        command'.flat.toList ++ ((Command.flatTail others').toList ++ rest') := by
      simpa [Command.flatTail] using same
    obtain ⟨bare, same⟩ := Command.flat_append_inj meets.1 meets'.1 (Command.ends_flatTail others ends)
      (Command.ends_flatTail others' ends') piped
    obtain ⟨bares, behind⟩ := Command.flatTail_append_inj meets.2 meets'.2 ends ends' same
    exact ⟨by rw [Command.bareList, Command.bareList, bare, bares], behind⟩
termination_by structural commands => commands

theorem Link.flatList_append_inj : ∀ {links others : List Link} {rest rest' : List Char},
    (∀ link ∈ links, link.Meets PlainTexts) → (∀ link ∈ others, link.Meets PlainTexts) →
    EndsList rest → EndsList rest' →
    (Link.flatList links).toList ++ rest = (Link.flatList others).toList ++ rest' →
    Link.bareList links = Link.bareList others ∧ rest = rest'
  | [], [], rest, rest', _, _, _, _, same => ⟨rfl, same⟩
  | [], .mk connective' pipeline' :: others', rest, rest', _, _, ends, _, same => by
    have space : rest = ' ' :: (connective'.operator.toList ++
        ' ' :: (pipeline'.flat.toList ++ ((Link.flatList others').toList ++ rest'))) := by
      simpa [Link.flatList, Link.flat] using same
    exact absurd space (ends.ne_space _)
  | .mk connective pipeline :: others, [], rest, rest', _, _, _, ends', same => by
    have space : rest' = ' ' :: (connective.operator.toList ++
        ' ' :: (pipeline.flat.toList ++ ((Link.flatList others).toList ++ rest))) := by
      simpa [Link.flatList, Link.flat] using same.symm
    exact absurd space (ends'.ne_space _)
  | .mk connective pipeline :: others, .mk connective' pipeline' :: others', rest, rest', meets, meets', ends, ends',
      same => by
    simp only [List.forall_mem_cons, Link.meets_mk] at meets meets'
    have operators : connective.operator.toList ++
        ' ' :: (pipeline.flat.toList ++ ((Link.flatList others).toList ++ rest)) = connective'.operator.toList ++
        ' ' :: (pipeline'.flat.toList ++ ((Link.flatList others').toList ++ rest')) := by
      simpa [Link.flatList, Link.flat] using same
    obtain ⟨rfl, spaced⟩ := Connective.operator_append_inj operators
    obtain ⟨bare, chained⟩ := Pipeline.flat_append_inj meets.1 meets'.1 (Link.ends_flatList others ends)
      (Link.ends_flatList others' ends') (List.cons.inj spaced).2
    obtain ⟨bares, behind⟩ := Link.flatList_append_inj meets.2 meets'.2 ends ends' chained
    exact ⟨by rw [Link.bareList, Link.bareList, Link.bare, Link.bare, bare, bares], behind⟩
termination_by structural links => links

theorem AndOr.flat_append_inj : ∀ {list other : AndOr} {rest rest' : List Char},
    list.Meets PlainTexts → other.Meets PlainTexts → EndsList rest → EndsList rest' →
    list.flat.toList ++ rest = other.flat.toList ++ rest' →
    list.first.bare = other.first.bare ∧ Link.bareList list.links = Link.bareList other.links ∧ rest = rest'
  | .mk first links terminator, .mk first' links' terminator', rest, rest', meets, meets', ends, ends', same => by
    obtain ⟨meets, others⟩ := AndOr.meets_mk.mp meets
    obtain ⟨meets', others'⟩ := AndOr.meets_mk.mp meets'
    simp only [AndOr.flat, String.toList_append, List.append_assoc] at same
    obtain ⟨bare, same⟩ := Pipeline.flat_append_inj meets meets' (Link.ends_flatList links ends)
      (Link.ends_flatList links' ends') same
    exact ⟨bare, Link.flatList_append_inj others others' ends ends' same⟩
termination_by structural list => list

/-- Lists are determined by their flat text, however the last one is ended. -/
theorem AndOr.flatList_append_inj : ∀ {lists others : List AndOr} {last : Terminator → String}
    {ends : List Char → Prop} {rest rest' : List Char}, Delimits last ends → lists ≠ [] → others ≠ [] →
    (∀ list ∈ lists, list.Meets PlainTexts) → (∀ list ∈ others, list.Meets PlainTexts) → ends rest → ends rest' →
    (AndOr.flatList last lists).toList ++ rest = (AndOr.flatList last others).toList ++ rest' →
    AndOr.bareList lists = AndOr.bareList others ∧ rest = rest'
  | [], _, _, _, _, _, _, nonempty, _, _, _, _, _, _ => absurd rfl nonempty
  | list :: lists, others, last, ends, rest, rest', delimits, _, nonempty', meets, meets', ended, ended', same => by
    obtain ⟨list', lists', rfl⟩ := List.exists_cons_of_ne_nil nonempty'
    rw [List.forall_mem_cons] at meets meets'
    cases lists with
    | nil =>
      -- Whether another list follows is told by what stands behind the first one.
      cases lists' with
      | nil =>
        simp only [AndOr.flatList, String.toList_append, List.append_assoc] at same
        obtain ⟨first, links, same⟩ := AndOr.flat_append_inj meets.1 meets'.1 (delimits.endsList ended)
          (delimits.endsList ended') same
        obtain ⟨terminator, behind⟩ := delimits.determined ended ended' same
        refine ⟨?_, behind⟩
        rw [AndOr.bareList, AndOr.bareList, AndOr.bare_eq_of_parts first links terminator]
        rfl
      | cons next' lists' =>
        simp only [AndOr.flatList, String.toList_append, List.append_assoc] at same
        obtain ⟨_, _, same⟩ := AndOr.flat_append_inj meets.1 meets'.1 (delimits.endsList ended)
          (Terminator.ends_mark ..) same
        have opens := AndOr.opens_flatList (List.cons_ne_nil next' lists') meets'.2 last
        exact absurd same (delimits.apart ended (opens.append rest'))
    | cons next lists =>
      cases lists' with
      | nil =>
        simp only [AndOr.flatList, String.toList_append, List.append_assoc] at same
        obtain ⟨_, _, same⟩ := AndOr.flat_append_inj meets.1 meets'.1 (Terminator.ends_mark ..)
          (delimits.endsList ended') same
        have opens := AndOr.opens_flatList (List.cons_ne_nil next lists) meets.2 last
        exact absurd same.symm (delimits.apart ended' (opens.append rest))
      | cons next' lists' =>
        simp only [AndOr.flatList, String.toList_append, List.append_assoc] at same
        obtain ⟨first, links, same⟩ := AndOr.flat_append_inj meets.1 meets'.1 (Terminator.ends_mark ..)
          (Terminator.ends_mark ..) same
        obtain ⟨terminator, same⟩ := Terminator.mark_append_inj same
        obtain ⟨bares, behind⟩ := AndOr.flatList_append_inj delimits (List.cons_ne_nil next lists)
          (List.cons_ne_nil next' lists') meets.2 meets'.2 ended ended' (List.cons.inj same).2
        refine ⟨?_, behind⟩
        rw [AndOr.bareList, AndOr.bare_eq_of_parts first links terminator, bares]
        rfl
termination_by structural lists => lists

end

/-- The flat layout of plain texts determines the script. -/
theorem Script.flat_inj {script other : Script} (meets : ∀ list ∈ script, list.Meets PlainTexts)
    (meets' : ∀ list ∈ other, list.Meets PlainTexts) (same : script.flat = other.flat) :
    script.bare = other.bare := by
  have chars := congrArg String.toList same
  cases script with
  | nil =>
    cases other with
    | nil => rfl
    | cons list' rest' =>
      obtain ⟨c, text, shown, _⟩ := AndOr.opens_flatList (List.cons_ne_nil list' rest') meets' Terminator.endMark
      exact absurd (chars.trans shown) (by simp [Script.flat, AndOr.flatList])
  | cons list rest =>
    cases other with
    | nil =>
      obtain ⟨c, text, shown, _⟩ := AndOr.opens_flatList (List.cons_ne_nil list rest) meets Terminator.endMark
      exact absurd (chars.symm.trans shown) (by simp [Script.flat, AndOr.flatList])
    | cons list' rest' =>
      have whole : (AndOr.flatList Terminator.endMark (list :: rest)).toList ++ [] =
          (AndOr.flatList Terminator.endMark (list' :: rest')).toList ++ [] := by
        rw [List.append_nil, List.append_nil]
        exact chars
      exact (AndOr.flatList_append_inj delimits_endMark (List.cons_ne_nil list rest) (List.cons_ne_nil list' rest')
        meets meets' (.inl rfl) (.inl rfl) whole).1

/-- Plain texts keep to their lines. -/
theorem PlainTexts.shows_lineMarks {simple : Simple} (plain : PlainTexts simple) : Shows lineMarks simple := by
  have fewer : lineMarks ⊆ partMarks := by decide
  obtain ⟨words, assignments⟩ := plain.shows
  refine ⟨fun word member => ⟨(words word member).1, (words word member).2.subset fewer⟩, ?_⟩
  exact fun assignment member =>
    ⟨(assignments assignment member).1.subset fewer, (assignments assignment member).2.subset fewer⟩

/-- Writing loses nothing: complete scripts that have the same source text in some mode, and whose words,
names and values are plain, are the same up to locations and the division of words. -/
theorem Script.bare_eq_of_source_eq {script other : Script} {mode : LineMode} {text : String}
    (complete : script.issues = []) (complete' : other.issues = [])
    (words : ∀ word ∈ script.words, Plain word.text) (words' : ∀ word ∈ other.words, Plain word.text)
    (assignments : ∀ assignment ∈ script.assignments,
      Plain assignment.name ∧ (assignment.value.text = "" ∨ Plain assignment.value.text))
    (assignments' : ∀ assignment ∈ other.assignments,
      Plain assignment.name ∧ (assignment.value.text = "" ∨ Plain assignment.value.text))
    (written : script.source mode = .ok text) (written' : other.source mode = .ok text) :
    script.bare = other.bare := by
  have meets : ∀ list ∈ script, list.Meets PlainTexts := meets_of_forall complete words assignments
  have meets' : ∀ list ∈ other, list.Meets PlainTexts := meets_of_forall complete' words' assignments'
  refine flat_inj meets meets' ?_
  cases mode with
  | single => rw [← eq_flat_of_source complete written, eq_flat_of_source complete' written']
  | multi =>
    -- The lines of both broken layouts are rejoined to the flat ones.
    rw [← rejoined_broken fun list member => (meets list member).imp fun _ => PlainTexts.shows_lineMarks,
      ← rejoined_broken fun list member => (meets' list member).imp fun _ => PlainTexts.shows_lineMarks,
      ← eq_broken_of_source complete written, eq_broken_of_source complete' written']

/-- A word in one piece and in two, in a group that is written at two places. -/
theorem Script.bare_eq_divided :
    let script (word : Word) (location : Location) : Script := [.mk (.mk true [.group
      [.mk (.mk false [.simple [⟨"x", {}⟩] [word] location]) [] .asynchronous] location]) [] .sequential]
    let whole := script (.literal "ab") {}
    let divided := script ⟨["a", "b"]⟩ { line := 7 }
    whole.source .multi = .ok "! \x7b\n    x= ab&\n\x7d" ∧ whole.bare = divided.bare := by
  intro script whole divided
  have written : whole.source .multi = .ok "! \x7b\n    x= ab&\n\x7d" := by rfl
  have written' : divided.source .multi = .ok "! \x7b\n    x= ab&\n\x7d" := by rfl
  exact ⟨written, Script.bare_eq_of_source_eq (by decide) (by decide) (by decide) (by decide) (by decide) (by decide)
    written written'⟩

end ShellTree
