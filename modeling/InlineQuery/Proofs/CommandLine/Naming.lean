import InlineQuery.Proofs.CommandLine.Endpoints
import InlineQuery.Proofs.Lens.Lines
import InlineQuery.Proofs.Text.Markup

/-!
Which operation the execute command starts when it is asked for one by its line and its name. The line
chooses a literal without regard to the name, and the name is looked up where that literal starts.
-/

namespace InlineQuery

theorem Handle.operation_start (id : String) (op : Operation) (values : List (String × Datum)) :
    (Handle.start id op values).operation = op := by
  unfold start
  dsimp only
  split <;> rfl

namespace Lens

/-- The title of an operation holds nothing that markup reads. -/
theorem plain_titleOf {op : Operation} (names : ∀ name, op.name = some name → Query.IsName name)
    (named : Bool) : ∀ c ∈ (titleOf op named).toList, c ≠ '\\' ∧ c ≠ '[' := by
  have all : ("Execute " ++ capitalized op.kind.name).toList.all (fun c => c ≠ '\\' ∧ c ≠ '[') := by
    cases op.kind <;> decide
  have kind : ∀ c ∈ ("Execute " ++ capitalized op.kind.name).toList, c ≠ '\\' ∧ c ≠ '[' :=
    fun c member => of_decide_eq_true (List.all_eq_true.mp all c member)
  have part (c : Char) (isPart : Query.isNamePart c = true) : c ≠ '\\' ∧ c ≠ '[' := by
    constructor <;> rintro rfl <;> exact absurd isPart (by decide)
  unfold titleOf
  dsimp only
  split
  · rename_i name isNamed
    split
    · intro c member
      rw [String.toList_append, String.toList_append, List.append_assoc] at member
      rcases List.mem_append.mp member with inKind | later
      · exact kind c inKind
      · rcases List.mem_append.mp later with blank | inName
        · obtain rfl : c = ' ' := by simpa using blank
          decide
        · exact part c ((names name isNamed).2 c inName)
    · exact kind
  · exact kind

end Lens

namespace CommandLine

/-- The heading can be shown whatever the path is. -/
theorem exists_heading (path : String) {lens : Lens}
    (plain : ∀ c ∈ lens.title.toList, c ≠ '\\' ∧ c ≠ '[') :
    ∃ before, heading path lens = .ok before := by
  obtain ⟨ending, isSlash, escaped⟩ : ∃ ending : List Char, (∀ c ∈ ending, c = '\\') ∧
      (Text.Markup.escape path).toList = Text.Markup.escapeFrom 0 path.toList ++ ending := by
    unfold Text.Markup.escape
    dsimp only
    rw [String.toList_ofList]
    split
    · exact ⟨['\\'], by simp, rfl⟩
    · exact ⟨[], by simp, (List.append_nil _).symm⟩
  have unbracketed : ∀ c ∈ ending ++ (":".toList ++ ((toString (lens.line + 1)).toList ++ ")".toList)),
      Text.Markup.isBracket c = false := by
    intro c member
    simp only [List.mem_append] at member
    rcases member with slash | colon | digit | closing
    · obtain rfl := isSlash c slash
      decide
    · obtain rfl : c = ':' := by simpa using colon
      decide
    · rw [Nat.toString_eq_repr, Nat.toList_repr] at digit
      have isDigit := Nat.isDigit_of_mem_toDigits (by decide) (by decide) digit
      refine Bool.eq_false_iff.mpr fun bracket => ?_
      rcases (by simpa [Text.Markup.isBracket] using bracket : c = '[' ∨ c = ']') with rfl | rfl <;>
        exact absurd isDigit (by decide)
    · obtain rfl : c = ')' := by simpa using closing
      decide
  obtain ⟨cs, rendered⟩ := Text.Markup.exists_render_bold path.toList plain unbracketed
  have whole : ("[bold]" ++ lens.title ++ "[/bold] (" ++ Text.Markup.escape path ++ ":"
      ++ toString (lens.line + 1) ++ ")").toList = "[bold]".toList ++ (lens.title.toList ++
        ("[/bold] (".toList ++ (Text.Markup.escapeFrom 0 path.toList ++ (ending ++ (":".toList ++
          ((toString (lens.line + 1)).toList ++ ")".toList)))))) := by
    simp only [String.toList_append, escaped, List.append_assoc]
  unfold heading Screen.print Screen.shown
  rw [whole, rendered]
  exact ⟨_, rfl⟩

variable {o : ExecuteOptions} {fs : Files} {process : Environment} {id : String}

/-- What the command has done when it has started an operation. -/
structure Launch (o : ExecuteOptions) (fs : Files) (process : Environment) (id : String) where
  values : List (String × Datum)
  session : Session
  document : SourceDocument
  set : LensSet
  opened : Session
  lens : Lens
  before : List ScreenLine
  number : Nat
  next : Session
  shown : ShownExecution
  reads : variableValues o.values o.items = .ok values
  starts : Session.start fs process process o.folders false true = .ok session
  opens : session.openFile fs (Path.ofString o.path) = (.ok (document, set), opened)
  chooses : o.lens? set = some lens
  prints : heading o.path lens = .ok before
  executes : opened.execute id true (o.request lens values) = (.ok number, next)
  isShown : next.shown[number]? = some shown

/-- The command starts an operation: it makes an execution of it. -/
def Starts (o : ExecuteOptions) (fs : Files) (process : Environment) (id : String) (op : Operation) :
    Prop :=
  ∃ launch : Launch o fs process id, launch.shown.handle.operation = op

/-- Once an operation is started, the command runs it to its end and shows its result. -/
theorem Launch.execute_eq (launch : Launch o fs process id) (net : Network) :
    execute o fs process net id =
      let (s, net) := (launch.next.run launch.number).settle fs net
      let (s, net) := s.disposeView net launch.number
      (s.shown[launch.number]?.elim (.ok ⟨0, launch.before⟩) (conclusion launch.before), net) := by
  unfold execute
  simp only [launch.reads, launch.starts, launch.opens]
  unfold executeLens
  simp only [launch.chooses, launch.prints]
  unfold executeIn
  simp only [launch.executes]
  generalize (launch.next.run launch.number).settle fs net = settled
  generalize settled.1.disposeView settled.2 launch.number = disposed
  cases disposed.1.shown[launch.number]? <;> rfl

section Opening

variable {s t : Session} {document : SourceDocument} {set : LensSet} {lens : Lens}
  {values : List (String × Datum)}
  (started : Session.start fs process process o.folders false true = .ok s)
  (opened : s.openFile fs (Path.ofString o.path) = (.ok (document, set), t))
  (chosen : o.lens? set = some lens)
include started opened chosen

/-- The request of the command is executed if an operation is found for it. -/
theorem execute_cases (id : String) (values : List (String × Datum)) :
    match Session.prepare document set (o.request lens values) with
    | .error e => t.execute id true (o.request lens values) = (.error e, t)
    | .ok (op, _) => ∃ u x, t.execute id true (o.request lens values) = (.ok t.shown.length, u) ∧
        u.shown[t.shown.length]? = some x ∧ x.handle.operation = op := by
  obtain ⟨-, made, isOpen, -⟩ := Session.openFile_ok opened
  have fresh : t.IsFresh := (Session.isFresh_start started).adopt
    (fun _ _ taken => Workspace.openFile_ok taken) opened
  have named : (o.request lens values).uri = document.uri :=
    LensSet.uri_of_mem_lenses made (mem_lenses_of_lens? chosen)
  obtain ⟨again, madeAgain, prepared⟩ := fresh.execute_eq (named.symm ▸ isOpen) id true
  cases made.symm.trans madeAgain
  cases found : Session.prepare document set (o.request lens values) with
  | error e =>
    rw [found] at prepared
    exact prepared
  | ok answer =>
    rw [found] at prepared
    obtain ⟨u, same, shown⟩ := prepared
    exact ⟨u, _, same, by rw [shown]; exact List.getElem?_concat_length, Handle.operation_start ..⟩

end Opening

/-- Where it starts none, the network is left alone. -/
theorem network_of_not_launched (none_ : ¬ ∃ op, Starts o fs process id op) (net : Network) :
    (execute o fs process net id).2 = net := by
  unfold execute
  split
  · rfl
  · rename_i values reads
    split
    · rfl
    · rename_i s starts
      split
      · rfl
      · rename_i document set t opens
        unfold executeLens
        split
        · rfl
        · rename_i lens chooses
          split
          · rfl
          · rename_i before prints
            have cases_ := execute_cases starts opens chooses id values
            unfold executeIn
            split at cases_
            · rw [cases_]
              dsimp only
              split <;> rfl
            · obtain ⟨u, x, executes, isShown, -⟩ := cases_
              exact absurd ⟨_, ⟨⟨values, s, document, set, t, lens, before, _, u, x, reads, starts, opens,
                chooses, prints, executes, isShown⟩, rfl⟩⟩ none_

section Opening

variable {s t : Session} {document : SourceDocument} {set : LensSet} {lens : Lens}
  {values : List (String × Datum)} {before : List ScreenLine}

/-- The command starts what is found for its request. -/
theorem starts_iff (workspace : HasWorkspace fs o.folders o.path)
    (reads : variableValues o.values o.items = .ok values)
    (started : Session.start fs process process o.folders false true = .ok s)
    (opened : s.openFile fs (Path.ofString o.path) = (.ok (document, set), t))
    (chosen : o.lens? set = some lens) (prints : heading o.path lens = .ok before) (op : Operation) :
    Starts o fs process id op ↔ Session.findOperation set (o.request lens values) = .ok op := by
  obtain ⟨⟨read, isRead, uri⟩, -⟩ := Session.openFile_ok opened
  obtain ⟨again, readAgain, path⟩ := path?_ofFile workspace
  cases isRead.symm.trans readAgain
  rw [SourceDocument.path?, ← uri, ← SourceDocument.path?] at path
  have executes := execute_cases started opened chosen id values
  constructor
  · rintro ⟨launch, rfl⟩
    obtain ⟨values', s', document', set', t', lens', before', i, u, x, reads', starts', opens', chooses',
      prints', executes', isShown⟩ := launch
    cases reads.symm.trans reads'
    cases started.symm.trans starts'
    cases opened.symm.trans opens'
    cases chosen.symm.trans chooses'
    split at executes
    · rw [executes] at executes'
      cases executes'
    · rename_i op query prepared
      obtain ⟨next, y, executes, isShown', isOperation⟩ := executes
      rw [executes] at executes'
      cases executes'
      cases isShown.symm.trans isShown'
      rw [isOperation]
      unfold Session.prepare at prepared
      cases found : Session.findOperation set (o.request lens values) with
      | error e => rw [found] at prepared; cases prepared
      | ok op' =>
        rw [found, path] at prepared
        cases prepared
        rfl
  · intro found
    have prepared : ∃ query, Session.prepare document set (o.request lens values) = .ok (op, query) := by
      rw [Session.prepare, found, path]
      exact ⟨_, rfl⟩
    obtain ⟨query, prepared⟩ := prepared
    rw [prepared] at executes
    obtain ⟨u, x, executes, isShown, isOperation⟩ := executes
    exact ⟨⟨values, s, document, set, t, lens, before, _, u, x, reads, started, opened, chosen, prints,
      executes, isShown⟩, isOperation⟩

/-- Given a line and a name, the command starts what answers to the name where the first literal on the
line that holds operations starts. -/
theorem starts_onLine_iff {line : Int} {name : String} {entry : IndexEntry}
    (workspace : HasWorkspace fs o.folders o.path)
    (reads : variableValues o.values o.items = .ok values)
    (started : Session.start fs process process o.folders false true = .ok s)
    (opened : s.openFile fs (Path.ofString o.path) = (.ok (document, set), t))
    (noOffset : o.offset = none) (atLine : o.line = some line) (named : o.name = some name)
    (given : name ≠ "") (first : set.index.entryOnLine? (line - 1) = some entry) (op : Operation) :
    Starts o fs process id op ↔ set.operationAt entry.literal.start (some name) = some op := by
  obtain ⟨-, made, -⟩ := Session.openFile_ok opened
  obtain ⟨indexed, -⟩ := LensSet.isIndexed_ofDocument made
  have within := (OperationIndex.entryOnLine?_some indexed.ordered first).1
  obtain ⟨shown, isShown, lens⟩ := LensSet.lensAtLine_of_entry made first
  have chosen : o.lens? set =
      some (.ofOperation document.uri (1 < entry.operations.length) shown) := by
    rw [ExecuteOptions.lens?, noOffset, atLine]
    exact lens
  obtain ⟨before, prints⟩ : ∃ before, heading o.path
      (.ofOperation document.uri (1 < entry.operations.length) shown) = .ok before :=
    exists_heading o.path
      (Lens.plain_titleOf (LensSet.hasNames_ofDocument made entry within shown isShown) _)
  have literal := (indexed.counted entry within).literal_eq isShown
  rw [starts_iff workspace reads started opened chosen prints]
  simp only [Session.findOperation, ExecuteOptions.request, ExecuteOptions.operationName, named, given,
    if_false, Lens.ofOperation, literal, Option.bind_none]
  cases set.operationAt entry.literal.start (some name) <;> simp

/-- Where a literal on a line holds an operation of a name, the command that is given the line and the
name starts such an operation if and only if the first literal on the line that holds operations holds
one of that name, and no literal that ends where that one starts holds another. -/
theorem starts_named_iff {line : Int} {name : String} (workspace : HasWorkspace fs o.folders o.path)
    (reads : variableValues o.values o.items = .ok values)
    (started : Session.start fs process process o.folders false true = .ok s)
    (opened : s.openFile fs (Path.ofString o.path) = (.ok (document, set), t))
    (noOffset : o.offset = none) (atLine : o.line = some line) (named : o.name = some name)
    (held : set.index.HoldsOnLine (line - 1) name) :
    (∃ op, Starts o fs process id op ∧ op.name = some name ∧ op.literal.Spans (line - 1)) ↔
      set.index.ReachesOnLine (line - 1) name := by
  obtain ⟨-, made, -⟩ := Session.openFile_ok opened
  obtain ⟨e, within, spans, op, member, same⟩ := held
  have given : name ≠ "" := (LensSet.hasNames_ofDocument made e within op member name same).1
  obtain ⟨entry, first⟩ : ∃ entry, set.index.entryOnLine? (line - 1) = some entry := by
    refine Option.isSome_iff_exists.mp (List.find?_isSome.mpr ⟨e, within, ?_⟩)
    simp [spans, List.ne_nil_of_mem member]
  have starts (op : Operation) : Starts o fs process id op ↔ _ :=
    starts_onLine_iff workspace reads started opened noOffset atLine named given first op
  have reached := LensSet.operationAt_line_iff made first name
  constructor
  · rintro ⟨op, isStarted, -, spans⟩
    exact reached.mp ⟨op, (starts op).mp isStarted, spans⟩
  · intro reaches
    obtain ⟨op, found, spans⟩ := reached.mpr reaches
    refine ⟨op, (starts op).mpr found, ?_, spans⟩
    rw [LensSet.operationAt, OperationIndex.operationAt_natCast] at found
    obtain ⟨e, -, picked⟩ := List.exists_of_findSome?_eq_some found
    exact (OperationIndex.pick_answers picked).resolve_left (by simp)

/-- Two literals on two lines: the operation of the second, asked for by its line and its name. -/
theorem starts_named_second :
    let fs : Files := ⟨⟨"/", ["w"]⟩, [(["w", ".graphqlconfig"], ⟨[], 0⟩), (["w", "x.ts"],
      ⟨Text.encodeUtf8 "gql\x60query A \x7b a \x7d\x60\ngql\x60query B \x7b b \x7d\x60", 0⟩)], []⟩
    let o : ExecuteOptions :=
      ⟨"x.ts", some 2, none, some "B", [], none, none, none, [⟨"/", ["w"]⟩]⟩
    HasWorkspace fs o.folders o.path ∧
      ∃ op, Starts o fs [] "1" op ∧ op.name = some "B" ∧ op.literal.Spans 1 := by
  intro fs o
  have workspace : HasWorkspace fs o.folders o.path :=
    ⟨by decide, by decide, by decide, by decide⟩
  obtain ⟨s, started, ⟨document, set⟩, opened, held, reached⟩ :
      ∃ s ∈ (Session.start fs [] [] o.folders false true).toOption,
        ∃ p ∈ (s.openFile fs (Path.ofString o.path)).1.toOption,
          p.2.index.HoldsOnLine (2 - 1) "B" ∧ p.2.index.ReachesOnLine (2 - 1) "B" := by
    decide +kernel
  have opened : s.openFile fs (Path.ofString o.path) =
      (.ok (document, set), (s.openFile fs (Path.ofString o.path)).2) := by
    rw [← eq_ok_of_mem_toOption opened]
  exact ⟨workspace, (starts_named_iff workspace rfl (eq_ok_of_mem_toOption started) opened rfl rfl rfl
    held).mpr reached⟩

/-- Two literals on one line: nothing is started for the name of the second. -/
theorem not_starts_named :
    let fs : Files := ⟨⟨"/", ["w"]⟩, [(["w", ".graphqlconfig"], ⟨[], 0⟩), (["w", "x.ts"],
      ⟨Text.encodeUtf8 "gql\x60query A \x7b a \x7d\x60; gql\x60query B \x7b b \x7d\x60", 0⟩)], []⟩
    let o : ExecuteOptions :=
      ⟨"x.ts", some 1, none, some "B", [], none, none, none, [⟨"/", ["w"]⟩]⟩
    HasWorkspace fs o.folders o.path ∧
      (∃ s t document set, Session.start fs [] [] o.folders false true = .ok s ∧
        s.openFile fs (Path.ofString o.path) = (.ok (document, set), t) ∧
        set.index.HoldsOnLine 0 "B") ∧
      ¬ ∃ op, Starts o fs [] "1" op := by
  intro fs o
  have workspace : HasWorkspace fs o.folders o.path :=
    ⟨by decide, by decide, by decide, by decide⟩
  obtain ⟨s, started, ⟨document, set⟩, opened, held, entry, first, absent⟩ :
      ∃ s ∈ (Session.start fs [] [] o.folders false true).toOption,
        ∃ p ∈ (s.openFile fs (Path.ofString o.path)).1.toOption, p.2.index.HoldsOnLine 0 "B" ∧
          ∃ entry ∈ p.2.index.entryOnLine? (1 - 1),
            p.2.operationAt entry.literal.start (some "B") = none := by
    decide +kernel
  have started := eq_ok_of_mem_toOption started
  have opened : s.openFile fs (Path.ofString o.path) =
      (.ok (document, set), (s.openFile fs (Path.ofString o.path)).2) := by
    rw [← eq_ok_of_mem_toOption opened]
  refine ⟨workspace, ⟨s, _, document, set, started, opened, held⟩, fun ⟨op, isStarted⟩ => ?_⟩
  have found := (starts_onLine_iff workspace rfl started opened rfl rfl rfl (by decide) first op).mp
    isStarted
  rw [absent] at found
  cases found

end Opening

end CommandLine
end InlineQuery
