import Mathlib.Data.List.Lex
import ShellTree.Proofs.Defects

/-!
# The issues of a body among those of the script around it

The body of a group or a subshell is a script by itself. Its issues are found in one piece among those of the
script around it, where the address of the body is put in front of each; no other issue has an address that
starts like this. Nothing is said here of how the issues are found: those of either script are all that is
shown, in the order of their addresses, and what an address is put in front of keeps its order.
-/

namespace ShellTree

/-- The script that a command encloses. -/
def Command.body? : Command → Option Script
  | .simple .. => none
  | .group body _ => some body
  | .subshell body _ => some body

namespace Issue

/-- An issue of a part, addressed from the node that `front` leads down from. -/
def behind (front : Address) (issue : Issue) : Issue := { issue with address := front ++ issue.address }

/-- Whether the path of an issue starts with a text. -/
def startsWith (front : String) (issue : Issue) : Bool := front.toList.isPrefixOf issue.address.text.toList

end Issue

/-! ## Pieces of a sorted list -/

section

variable {α : Type} {before : α → α → Prop} {keep : α → Bool} {items : List α}

/-- What is kept behind a kept item comes right behind it, if nothing between kept items is left out. -/
theorem filter_prefix_of_convex {item : α} (sorted : (item :: items).Pairwise before) (kept : keep item = true)
    (convex : ∀ {first middle last}, before first middle → before middle last → keep first = true →
      keep last = true → keep middle = true) : items.filter keep <+: items := by
  induction items with
  | nil => exact List.nil_prefix
  | cons next rest ih =>
    rw [List.pairwise_cons, List.pairwise_cons, List.forall_mem_cons] at sorted
    obtain ⟨⟨first, others⟩, behind, sorted⟩ := sorted
    by_cases nextKept : keep next = true
    · rw [List.filter_cons_of_pos nextKept, List.cons_prefix_cons]
      exact ⟨rfl, ih (List.pairwise_cons.mpr ⟨others, sorted⟩)⟩
    · have none : rest.filter keep = [] := by
        refine List.filter_eq_nil_iff.mpr fun last member lastKept => nextKept ?_
        exact convex first (behind last member) kept lastKept
      rw [List.filter_cons_of_neg nextKept, none]
      exact List.nil_prefix

/-- What is kept of a sorted list is one piece of it, if nothing between kept items is left out. -/
theorem filter_infix_of_convex (sorted : items.Pairwise before)
    (convex : ∀ {first middle last}, before first middle → before middle last → keep first = true →
      keep last = true → keep middle = true) : items.filter keep <:+: items := by
  induction items with
  | nil => exact List.infix_rfl
  | cons item rest ih =>
    by_cases kept : keep item = true
    · rw [List.filter_cons_of_pos kept]
      exact (List.cons_prefix_cons.mpr ⟨rfl, filter_prefix_of_convex sorted kept convex⟩).isInfix
    · rw [List.filter_cons_of_neg kept]
      exact List.infix_cons (ih (List.pairwise_cons.mp sorted).2)

end

/-! ## Paths into a body -/

theorem Segment.text_inj {segment other : Segment} : segment.text.toList = other.text.toList ↔ segment = other := by
  constructor
  · intro same
    have read := segment.ofText?_text
    rw [same, other.ofText?_text] at read
    exact (Option.some.inj read).symm
  · rintro rfl
    rfl

/-- An address that leads on from a body, whose command is at `front`, to something inside it. -/
def Address.LeadsInto (front address : Address) : Prop := ∃ rest, rest ≠ [] ∧ address = front ++ .body :: rest

theorem Address.text_inside {front rest : Address} (moved : front ≠ []) (more : rest ≠ []) :
    Address.text (front ++ .body :: rest) = front.text ++ ".body." ++ rest.text := by
  have body : Address.text [.body] = "body" := by decide
  rw [text_append moved (by simp), ← List.singleton_append, text_append (by simp) more, body]
  simp [← String.toList_inj]

/-- A path goes on behind that of a body exactly if it leads to something inside. -/
theorem Address.prefix_text_iff {front address : Address} (moved : front ≠ []) :
    (front.text ++ ".body.").toList <+: address.text.toList ↔ front.LeadsInto address := by
  constructor
  · rintro ⟨more, whole⟩
    have shown : address ≠ [] := by
      rintro rfl
      simp [text] at whole
    -- The dots of the text are those between segments, so both sides have the same pieces.
    have pieces := Address.splitOn_text shown
    have divided : (front.text ++ ".body.").toList ++ more =
        front.text.toList ++ '.' :: ("body".toList ++ '.' :: more) := by simp
    have body : "body".toList.splitOn '.' = [Segment.body.text.toList] := by decide
    rw [← whole, divided, List.splitOn, List.splitOnP_append_cons _ _ (by decide),
      List.splitOnP_append_cons _ _ (by decide), ← List.splitOn, Address.splitOn_text moved, ← List.splitOn, body,
      ← List.splitOn] at pieces
    obtain ⟨front', others, rfl, same, others'⟩ := List.map_eq_append_iff.mp pieces.symm
    obtain ⟨step, rest, rfl, isBody, behind⟩ := List.map_eq_append_iff.mp others'
    have injective : ∀ segment other : Segment, segment.text.toList = other.text.toList → segment = other :=
      fun _ _ => Segment.text_inj.mp
    obtain rfl := (List.map_inj_right injective).mp same
    obtain rfl : step = [.body] := (List.map_inj_right injective).mp isBody
    refine ⟨rest, ?_, rfl⟩
    rintro rfl
    exact List.splitOnP_ne_nil _ _ behind.symm
  · rintro ⟨rest, more, rfl⟩
    rw [text_inside moved more]
    exact ⟨(text rest).toList, String.toList_append.symm⟩

/-! ## What a body shows -/

namespace Part

/-- Issues behind an address are those of the part that it leads to. -/
theorem shows_append {part found : Part} {front rest : Address} {defect : Defect} {location : Option Location}
    (reached : part.follow? front = some found) :
    part.Shows ⟨defect, front ++ rest, location⟩ ↔ found.Shows ⟨defect, rest, location⟩ := by
  simp only [Shows, follow?_append, reached, Option.bind_some]

/-- A body shows what its script shows, except for being empty. -/
theorem shows_body_cons {body : Script} {holder : Location} {defect : Defect} {segment : Segment} {rest : Address}
    {location : Option Location} :
    (Part.body body holder).Shows ⟨defect, segment :: rest, location⟩ ↔
      (Part.script body).Shows ⟨defect, segment :: rest, location⟩ := by
  have same : (Part.body body holder).child? segment = (Part.script body).child? segment := by
    cases segment <;> rfl
  rw [shows_cons, shows_cons, same]

end Part

theorem Script.address_ne_nil {script : Script} {issue : Issue} (member : issue ∈ script.issues) :
    issue.address ≠ [] := by
  intro unmoved
  obtain ⟨found, reached, lacks⟩ := (script.hasIssues.mem_iff issue).mp member
  rw [unmoved] at reached
  cases reached
  cases lacks

theorem Command.child?_body {command : Command} {body : Script} (encloses : command.body? = some body) :
    (Part.command command).child? .body = some (.body body command.location) := by
  cases command with
  | simple => cases encloses
  | group => cases encloses; rfl
  | subshell => cases encloses; rfl

section

variable {script body : Script} {address : Address} {command : Command}

/-- The issues behind the address of a body are those of the body. -/
theorem Script.mem_issues_behind_iff (reached : script.at? address = some (.command command))
    (encloses : command.body? = some body) (issue : Issue) :
    (issue ∈ script.issues ∧ address.LeadsInto issue.address) ↔
      issue ∈ body.issues.map (Issue.behind (address ++ [.body])) := by
  have inside : (Part.script script).follow? (address ++ [.body]) = some (.body body command.location) := by
    rw [at?] at reached
    rw [Part.follow?_append, reached, Option.bind_some, Part.follow?, Command.child?_body encloses]
    rfl
  have same (defect : Defect) (segment : Segment) (rest : Address) (location : Option Location) :
      ⟨defect, address ++ .body :: segment :: rest, location⟩ ∈ script.issues ↔
        ⟨defect, segment :: rest, location⟩ ∈ body.issues := by
    rw [script.hasIssues.mem_iff, body.hasIssues.mem_iff, List.append_cons, Part.shows_append inside,
      Part.shows_body_cons]
  rw [List.mem_map]
  constructor
  · rintro ⟨member, rest, moved, way⟩
    obtain ⟨segment, rest, rfl⟩ := List.exists_cons_of_ne_nil moved
    obtain ⟨defect, _, location⟩ := issue
    obtain rfl := way
    refine ⟨⟨defect, segment :: rest, location⟩, (same ..).mp member, ?_⟩
    simp [Issue.behind]
  · rintro ⟨inner, member, rfl⟩
    obtain ⟨segment, rest, way⟩ := List.exists_cons_of_ne_nil (body.address_ne_nil member)
    obtain ⟨defect, _, location⟩ := inner
    obtain rfl := way
    simp only [Issue.behind, List.append_assoc, List.singleton_append]
    exact ⟨(same ..).mpr member, segment :: rest, List.cons_ne_nil segment rest, rfl⟩

/-- Found in the order of their addresses, the issues behind the address of a body are the list of those of the
body. -/
theorem Script.filter_issues_eq (reached : script.at? address = some (.command command))
    (encloses : command.body? = some body) (keep : Issue → Bool)
    (inside : ∀ issue, keep issue = true ↔ address.LeadsInto issue.address) :
    script.issues.filter keep = body.issues.map (Issue.behind (address ++ [.body])) := by
  have nodup {issues : List Issue} (ordered : issues.Pairwise fun first second => first.address.Before second.address) :
      issues.Nodup := by
    refine ordered.imp ?_
    rintro first _ before rfl
    exact Address.Before.irrefl _ before
  have kept : (script.issues.filter keep).Pairwise fun first second => first.address.Before second.address :=
    script.hasIssues.ordered.filter keep
  have mapped : (body.issues.map (Issue.behind (address ++ [.body]))).Pairwise
      fun first second => first.address.Before second.address := by
    rw [List.pairwise_map]
    refine body.hasIssues.ordered.imp fun before => ?_
    exact List.Lex.append_left _ before _
  refine List.Perm.eq_of_pairwise ?_ kept mapped ?_
  · intro first second _ _ before after
    exact absurd after (List.lex_asymm Segment.Before.asymm before)
  · rw [List.perm_ext_iff_of_nodup (nodup kept) (nodup mapped)]
    intro issue
    rw [List.mem_filter, inside, Script.mem_issues_behind_iff reached encloses]

/-- Of three issues in a row, the one in the middle is inside a body if the other two are. -/
theorem Address.leadsInto_of_between {front first middle last : Address} (before : first.Before middle)
    (behind : middle.Before last) (starts : front.LeadsInto first) (ends : front.LeadsInto last) :
    front.LeadsInto middle := by
  obtain ⟨rest, moved, rfl⟩ := starts
  obtain ⟨rest', _, rfl⟩ := ends
  rw [List.append_cons] at before behind
  obtain ⟨more, rfl⟩ := Address.prefix_of_between before behind (List.prefix_append ..) (List.prefix_append ..)
  refine ⟨more, ?_, (List.append_cons front .body more).symm⟩
  -- The body itself comes before all that is inside.
  rintro rfl
  obtain ⟨segment, rest, rfl⟩ := List.exists_cons_of_ne_nil moved
  exact List.lex_asymm Segment.Before.asymm before (List.Lex.append_left _ .nil _)

/-- The issues whose paths go on behind that of a body are one piece of the issues of the script. They are those
of the body in their order, with the path of the body in front of each path. -/
theorem Script.issues_of_body {path : String} (named : script.named? path = some (.command command))
    (encloses : command.body? = some body) :
    let inside := script.issues.filter (Issue.startsWith (path ++ ".body."))
    inside <:+: script.issues ∧
      inside.map (fun issue => (issue.defect, issue.address.text, issue.location)) =
        body.issues.map fun issue => (issue.defect, path ++ ".body." ++ issue.address.text, issue.location) := by
  intro inside
  obtain ⟨address, read, reached⟩ := Option.bind_eq_some_iff.mp named
  obtain rfl := Address.text_of_ofText? read
  have moved : address ≠ [] := by
    rintro rfl
    cases reached
  have starts (issue : Issue) : issue.startsWith (address.text ++ ".body.") = true ↔
      address.LeadsInto issue.address := by
    rw [Issue.startsWith, List.isPrefixOf_iff_prefix, Address.prefix_text_iff moved]
  constructor
  · refine filter_infix_of_convex script.hasIssues.ordered fun before behind => ?_
    simp only [starts]
    exact Address.leadsInto_of_between before behind
  · have listed : inside = body.issues.map (Issue.behind (address ++ [.body])) :=
      Script.filter_issues_eq reached encloses _ starts
    rw [listed, List.map_map]
    refine List.map_congr_left fun issue member => ?_
    have text := Address.text_inside moved (body.address_ne_nil member)
    simp only [Function.comp_apply, Issue.behind, List.append_assoc, List.singleton_append, text]

end

/-- A body that has issues in the middle of a script, one of them in a body of its own. -/
theorem Script.issues_of_body_nested :
    let body : Script := [.mk .empty [] .sequential, .mk (.mk false [.group [] {}]) [] .asynchronous]
    let script : Script := [.mk (.mk false [.simple [] [] {}, .subshell body {}]) [.mk .andThen .empty] .sequential]
    let path := "lists[0].pipeline.commands[1]"
    let inside := script.issues.filter (Issue.startsWith (path ++ ".body."))
    script.named? path = some (.command (.subshell body {})) ∧ script.issues.length = 4 ∧
      inside <:+: script.issues ∧
      inside.map (fun issue => (issue.defect, issue.address.text, issue.location)) = [
        (.emptyPipeline, "lists[0].pipeline.commands[1].body.lists[0].pipeline", none),
        (.emptyBody, "lists[0].pipeline.commands[1].body.lists[1].pipeline.commands[0].body", some {})] := by
  intro body script path inside
  have text : Address.text [.list 0, .pipeline, .command 1] = path := by decide
  have named : script.named? path = some (.command (.subshell body {})) :=
    text ▸ script.named?_text [.list 0, .pipeline, .command 1]
  obtain ⟨piece, listed⟩ := Script.issues_of_body named rfl
  exact ⟨named, rfl, piece, listed.trans (by decide)⟩

end ShellTree
