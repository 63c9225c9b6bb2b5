import InlineQuery.Proofs.Operation.Index
import InlineQuery.Session

namespace InlineQuery

namespace LensSet

theorem isCurrent_of_ofDocument {document : SourceDocument} {set : LensSet}
    (made : ofDocument document = .ok set) : set.isCurrent document = true := by
  unfold ofDocument at made
  cases index : indexOf document with
  | error e => rw [index] at made; cases made
  | ok index' =>
    rw [index] at made
    cases made
    simp [isCurrent]

end LensSet

namespace LensCache

variable {cache : LensCache} {document : SourceDocument} {set : LensSet}

theorem get?_closed (cache : LensCache) (uri other : String) :
    (cache.closed uri).get? other = if uri == other then none else cache.get? other :=
  Assoc.get?_erase ..

/-- Computing the lenses of a document anew replaces its set and leaves all others. -/
theorem changed_ok {next : LensCache} (made : cache.changed document = .ok (set, next)) :
    LensSet.ofDocument document = .ok set ∧
      ∀ uri, next.get? uri = if document.uri == uri then some set else cache.get? uri := by
  unfold changed at made
  cases computed : LensSet.ofDocument document with
  | error e => rw [computed] at made; cases made
  | ok fresh =>
    rw [computed] at made
    cases made
    exact ⟨rfl, fun uri => Assoc.get?_put ..⟩

/-- The set of a document as it is now is handed out again. -/
theorem provide_of_get? (held : cache.get? document.uri = some set)
    (made : LensSet.ofDocument document = .ok set) : cache.provide document = .ok (set, cache) := by
  have current : cache.current? document = some set := by
    simp [current?, held, LensSet.isCurrent_of_ofDocument made]
  simp [provide, current]

end LensCache

namespace Workspace

variable {w next : Workspace} {document : SourceDocument}

theorem get?_put (w : Workspace) (document : SourceDocument) (uri : String) :
    (w.put document).get? uri = if document.uri == uri then some document else w.get? uri :=
  Assoc.get?_put ..

theorem get?_close (w : Workspace) (uri other : String) :
    (w.close uri).get? other = if uri == other then none else w.get? other :=
  Assoc.get?_erase ..

theorem openFile_ok {fs : Files} {path : Path}
    (opened : w.openFile fs path = .ok (document, next)) :
    next = w.put document := by
  unfold openFile at opened
  cases read : SourceDocument.ofFile fs path with
  | error e => rw [read] at opened; cases opened
  | ok text => rw [read] at opened; cases opened; rfl

theorem openText_ok {uri : String} {text : List Char} {languageId : Option String}
    (opened : w.openText uri text languageId = .ok (document, next)) : next = w.put document := by
  unfold openText at opened
  cases languageId with
  | some id => cases opened; rfl
  | none =>
    cases language : SourceDocument.languageOfUri uri with
    | error e => simp only [language] at opened; cases opened
    | ok language' => simp only [language] at opened; cases opened; rfl

theorem change_ok {uri : String} {text : List Char}
    (changed : w.change uri text = .ok (document, next)) : next = w.put document := by
  unfold change at changed
  cases old : w.get uri with
  | error e => rw [old] at changed; cases changed
  | ok before => rw [old] at changed; cases changed; rfl

end Workspace

namespace Session

variable {s next : Session}

/-- What the lenses of a session say is what its documents hold: each open document has the set that
is computed from it as it is now, and no other document has one. -/
structure IsFresh (s : Session) : Prop where
  held : ∀ uri document, s.workspace.get? uri = some document → document.uri = uri ∧
    ∃ set, LensSet.ofDocument document = .ok set ∧ s.lenses.get? uri = some set
  absent : ∀ uri, s.workspace.get? uri = none → s.lenses.get? uri = none

/-- Whether two sessions have the same open documents and lenses. -/
structure AgreesOnDocuments (s t : Session) : Prop where
  workspace : t.workspace = s.workspace
  lenses : t.lenses = s.lenses

namespace AgreesOnDocuments

theorem refl (s : Session) : s.AgreesOnDocuments s := ⟨rfl, rfl⟩

theorem trans {t u : Session} (first : s.AgreesOnDocuments t) (second : t.AgreesOnDocuments u) :
    s.AgreesOnDocuments u :=
  ⟨second.workspace.trans first.workspace, second.lenses.trans first.lenses⟩

/-- What every single step keeps, a number of steps keep. -/
theorem foldl {α : Type} {step : Session × Network → α → Session × Network}
    (each : ∀ (x : Session × Network) a, x.1.AgreesOnDocuments (step x a).1) (items : List α)
    (x : Session × Network) :
    x.1.AgreesOnDocuments (items.foldl step x).1 := by
  induction items generalizing x with
  | nil => exact refl _
  | cons a items ih => exact (each x a).trans (ih _)

theorem forget (s : Session) (uri : String) (i : Nat) :
    s.AgreesOnDocuments (s.forget uri i) := by
  unfold Session.forget
  split <;> exact ⟨rfl, rfl⟩

theorem disposeView (s : Session) (net : Network) (i : Nat) :
    s.AgreesOnDocuments (s.disposeView net i).1 := by
  unfold Session.disposeView
  split
  · exact refl s
  · split
    · exact refl s
    · split
      refine trans ?_ (forget ..)
      exact ⟨rfl, rfl⟩

theorem launch (s : Session) (fs : Files) (net : Network) (i : Nat) :
    s.AgreesOnDocuments (s.launch fs net i).1 := by
  unfold Session.launch
  split
  · exact refl s
  · split <;> exact ⟨rfl, rfl⟩

theorem settleOne (s : Session) (fs : Files) (net : Network) (disposes : Nat → Bool) (i : Nat) :
    s.AgreesOnDocuments (s.settleOne fs net disposes i).1 := by
  unfold Session.settleOne
  have launched := launch s fs net i
  dsimp only
  split
  · exact launched
  · refine launched.trans ?_
    dsimp only
    split
    · refine trans ?_ (forget ..)
      exact ⟨rfl, rfl⟩
    · exact ⟨rfl, rfl⟩

theorem settle (s : Session) (fs : Files) (net : Network) :
    s.AgreesOnDocuments (s.settle fs net).1 :=
  foldl (fun x i => settleOne x.1 fs x.2 _ i) _ (s, net)

theorem disposeViews (s : Session) (net : Network) (numbers : List Nat) :
    s.AgreesOnDocuments (s.disposeViews net numbers).1 :=
  foldl (fun x i => disposeView x.1 x.2 i) _ (s, net)

end AgreesOnDocuments

namespace IsFresh

theorem congr (fresh : s.IsFresh) (agrees : s.AgreesOnDocuments next) : next.IsFresh := by
  obtain ⟨held, absent⟩ := fresh
  refine ⟨?_, ?_⟩ <;> rw [agrees.workspace, agrees.lenses]
  · exact held
  · exact absent

/-- The lenses of an open document are those computed from it, and asking for them changes
nothing. -/
theorem lensesFor_eq (fresh : s.IsFresh) {uri : String} {document : SourceDocument}
    (isOpen : s.workspace.get? uri = some document) :
    ∃ set, LensSet.ofDocument document = .ok set ∧ s.lensesFor uri = (.ok (document, set), s) := by
  obtain ⟨rfl, set, made, held⟩ := fresh.held uri document isOpen
  refine ⟨set, made, ?_⟩
  simp [lensesFor, Workspace.get, isOpen, LensCache.provide_of_get? held made]

theorem lensesFor (fresh : s.IsFresh) (uri : String) : (s.lensesFor uri).2 = s := by
  cases isOpen : s.workspace.get? uri with
  | none => simp [Session.lensesFor, Workspace.get, isOpen]
  | some document =>
    obtain ⟨set, _, same⟩ := fresh.lensesFor_eq isOpen
    rw [same]

/-- A document that is taken over replaces its predecessor, and its lenses are computed anew: its
version may be one that was used before. -/
theorem adopt (fresh : s.IsFresh) {x : Except Failure (SourceDocument × Workspace)}
    (puts : ∀ document w, x = .ok (document, w) → w = s.workspace.put document)
    {result : SourceDocument × LensSet} (adopted : s.adopt x = (.ok result, next)) :
    next.IsFresh := by
  cases x with
  | error e => cases adopted
  | ok taken =>
    obtain ⟨document, w⟩ := taken
    have isPut := puts document w rfl
    subst isPut
    unfold Session.adopt at adopted
    dsimp only at adopted
    split at adopted
    · cases adopted
    · rename_i set lenses computed
      obtain ⟨made, sets⟩ := LensCache.changed_ok computed
      cases adopted
      refine ⟨?_, ?_⟩
      · intro uri held isOpen
        rw [Workspace.get?_put] at isOpen
        rw [sets]
        split at isOpen
        · rename_i same
          cases isOpen
          exact ⟨by simpa using same, set, made, by rw [if_pos same]⟩
        · rename_i other
          rw [if_neg other]
          exact fresh.held uri held isOpen
      · intro uri isClosed
        rw [Workspace.get?_put] at isClosed
        rw [sets]
        split at isClosed
        · cases isClosed
        · rename_i other
          rw [if_neg other]
          exact fresh.absent uri isClosed

theorem close (fresh : s.IsFresh) (net : Network) (uri : String) : (s.close net uri).1.IsFresh := by
  have kept := fresh.congr (.disposeViews s net (s.views uri))
  unfold Session.close
  dsimp only
  generalize (s.disposeViews net (s.views uri)).1 = t at kept ⊢
  refine ⟨?_, ?_⟩
  · intro other document isOpen
    rw [Workspace.get?_close] at isOpen
    rw [LensCache.get?_closed]
    split at isOpen
    · cases isOpen
    · rename_i apart
      rw [if_neg apart]
      exact kept.held other document isOpen
  · intro other isClosed
    rw [Workspace.get?_close] at isClosed
    rw [LensCache.get?_closed]
    split at isClosed
    · rename_i same
      rw [if_pos same]
    · rename_i apart
      rw [if_neg apart]
      exact kept.absent other isClosed

/-- Executing an operation looks it up in the lenses computed from the document as it is now. -/
theorem execute_eq (fresh : s.IsFresh) {r : ExecuteRequest} {document : SourceDocument}
    (isOpen : s.workspace.get? r.uri = some document) (id : String) (isWatched : Bool) :
    ∃ set, LensSet.ofDocument document = .ok set ∧
      match Session.prepare document set r with
      | .error e => s.execute id isWatched r = (.error e, s)
      | .ok (operation, query) => ∃ next, s.execute id isWatched r = (.ok s.shown.length, next) ∧
          next.shown = s.shown ++ [⟨r.uri, query, .start id operation r.values,
            .new ResultView.defaultUri isWatched⟩] := by
  obtain ⟨set, made, same⟩ := fresh.lensesFor_eq isOpen
  refine ⟨set, made, ?_⟩
  unfold Session.execute
  rw [same]
  cases prepared : Session.prepare document set r with
  | error e => simp [Except.bind, prepared]
  | ok found =>
    simp only [Except.bind, prepared]
    exact ⟨_, rfl, rfl⟩

theorem execute (fresh : s.IsFresh) (id : String) (isWatched : Bool) (r : ExecuteRequest) :
    (s.execute id isWatched r).2.IsFresh := by
  have same := fresh.lensesFor r.uri
  unfold Session.execute
  dsimp only
  rw [same]
  split
  · exact fresh
  · exact fresh.congr ⟨rfl, rfl⟩

end IsFresh

theorem isFresh_start {fs : Files} {process explicit : Environment} {folders : List Path}
    {isDebugging checks : Bool}
    (started : start fs process explicit folders isDebugging checks = .ok s) : s.IsFresh := by
  unfold start at started
  cases checks with
  | false => cases started; exact ⟨nofun, fun _ _ => rfl⟩
  | true =>
    cases required : Configuration.require fs folders with
    | error e => simp only [required] at started; cases started
    | ok path => simp only [required] at started; cases started; exact ⟨nofun, fun _ _ => rfl⟩

/-- What an editor does with documents and their operations, and what it meets then: the files or
the network as they are at that time. In between executions go on. -/
inductive DocumentAction where
  | openFile (fs : Files) (path : Path)
  | openText (uri : String) (text : List Char) (languageId : Option String)
  | change (uri : String) (text : List Char)
  | close (net : Network) (uri : String)
  | lenses (uri : String)
  | execute (id : String) (isWatched : Bool) (request : ExecuteRequest)
  | settle (fs : Files) (net : Network)

/-- The session after an operation on a document that succeeds. -/
def succeeded (x : Except Failure (SourceDocument × LensSet) × Session) : Except Failure Session :=
  x.1.map fun _ => x.2

/-- The session after an action. Documents have to be opened and changed with success; asking for
lenses and executing may fail. -/
def act (s : Session) : DocumentAction → Except Failure Session
  | .openFile fs path => succeeded (s.openFile fs path)
  | .openText uri text languageId => succeeded (s.openText uri text languageId)
  | .change uri text => succeeded (s.change uri text)
  | .close net uri => .ok (s.close net uri).1
  | .lenses uri => .ok (s.lensesFor uri).2
  | .execute id isWatched request => .ok (s.execute id isWatched request).2
  | .settle fs net => .ok (s.settle fs net).1

theorem succeeded_ok {x : Except Failure (SourceDocument × LensSet) × Session}
    (done : succeeded x = .ok next) : ∃ result, x = (.ok result, next) := by
  obtain ⟨_ | result, after⟩ := x
  · cases done
  · cases done
    exact ⟨result, rfl⟩

theorem IsFresh.act (fresh : s.IsFresh) {action : DocumentAction}
    (acted : s.act action = .ok next) : next.IsFresh := by
  cases action with
  | openFile fs path =>
    obtain ⟨result, adopted⟩ := succeeded_ok acted
    exact fresh.adopt (fun _ _ opened => Workspace.openFile_ok opened) adopted
  | openText uri text languageId =>
    obtain ⟨result, adopted⟩ := succeeded_ok acted
    exact fresh.adopt (fun _ _ opened => Workspace.openText_ok opened) adopted
  | change uri text =>
    obtain ⟨result, adopted⟩ := succeeded_ok acted
    exact fresh.adopt (fun _ _ changed => Workspace.change_ok changed) adopted
  | close net uri =>
    cases acted
    exact fresh.close net uri
  | lenses uri =>
    cases acted
    rwa [fresh.lensesFor uri]
  | execute id isWatched request =>
    cases acted
    exact fresh.execute id isWatched request
  | settle fs net =>
    cases acted
    exact fresh.congr (.settle s fs net)

theorem IsFresh.run (fresh : s.IsFresh) {actions : List DocumentAction}
    (ran : actions.foldlM Session.act s = .ok next) : next.IsFresh := by
  induction actions generalizing s with
  | nil => cases ran; exact fresh
  | cons action actions ih =>
    rw [List.foldlM_cons] at ran
    cases acted : s.act action with
    | error e => rw [acted] at ran; cases ran
    | ok after =>
      rw [acted] at ran
      exact ih (fresh.act acted) ran

/-- After any actions the lenses of an open document are those of its text as it is now, an
execution takes its operation from them, and a document that is not open has none. -/
theorem run_lenses_current {fs : Files} {process explicit : Environment} {folders : List Path}
    {isDebugging checks : Bool} {first : Session} {actions : List DocumentAction}
    (started : start fs process explicit folders isDebugging checks = .ok first)
    (ran : actions.foldlM act first = .ok s) (uri : String) :
    match s.workspace.get? uri with
    | some document => ∃ set, LensSet.ofDocument document = .ok set ∧
        s.lensesFor uri = (.ok (document, set), s) ∧
        ∀ id isWatched (r : ExecuteRequest), r.uri = uri →
          match prepare document set r with
          | .error e => s.execute id isWatched r = (.error e, s)
          | .ok (operation, query) =>
            ∃ next, s.execute id isWatched r = (.ok s.shown.length, next) ∧
              next.shown = s.shown ++ [⟨uri, query, .start id operation r.values,
                .new ResultView.defaultUri isWatched⟩]
    | none => s.lenses.get? uri = none ∧ s.lenses.lenses uri = [] := by
  have fresh := (isFresh_start started).run ran
  cases isOpen : s.workspace.get? uri with
  | none =>
    have absent := fresh.absent uri isOpen
    exact ⟨absent, by rw [LensCache.lenses, absent]; rfl⟩
  | some document =>
    obtain ⟨set, made, same⟩ := fresh.lensesFor_eq isOpen
    refine ⟨set, made, same, ?_⟩
    rintro id isWatched r rfl
    obtain ⟨other, remade, executed⟩ := fresh.execute_eq isOpen id isWatched
    cases made.symm.trans remade
    exact executed

/-- A text is opened and executed, changed, and opened again in another language, with the version
and the text that it had at first. -/
theorem run_lenses_current_reopened :
    ∃ first s, start ⟨⟨"/", []⟩, [], []⟩ [] [] [] false false = .ok first ∧
      [.openText "file:///a" "gql\x60\x7b a \x7d\x60".toList (some "javascript"),
        .execute "1" true { uri := "file:///a", start := 0 },
        .change "file:///a" "gql\x60\x7b b \x7d\x60".toList,
        .close default "file:///b",
        .openText "file:///a" "gql\x60\x7b a \x7d\x60".toList (some "plaintext")].foldlM act first = .ok s ∧
      ∃ document, s.workspace.get? "file:///a" = some document ∧
        document.language = .unknown ∧ document.version = 0 ∧
        ∃ set, LensSet.ofDocument document = .ok set ∧
          s.lensesFor "file:///a" = (.ok (document, set), s) := by
  obtain ⟨first, started, s, ran, isOpen⟩ :
      ∃ first ∈ (start ⟨⟨"/", []⟩, [], []⟩ [] [] [] false false).toOption,
      ∃ s ∈ ([.openText "file:///a" "gql\x60\x7b a \x7d\x60".toList (some "javascript"),
        .execute "1" true { uri := "file:///a", start := 0 },
        .change "file:///a" "gql\x60\x7b b \x7d\x60".toList,
        .close default "file:///b",
        .openText "file:///a" "gql\x60\x7b a \x7d\x60".toList (some "plaintext")].foldlM act first).toOption,
      s.workspace.get? "file:///a" = some ⟨"file:///a", "gql\x60\x7b a \x7d\x60".toList, .unknown, 0⟩ := by
    decide +kernel
  have started := eq_ok_of_mem_toOption started
  have ran := eq_ok_of_mem_toOption ran
  have current := run_lenses_current started ran "file:///a"
  rw [isOpen] at current
  obtain ⟨set, made, same, _⟩ := current
  exact ⟨first, s, started, ran, _, isOpen, rfl, rfl, set, made, same⟩

end Session
end InlineQuery
