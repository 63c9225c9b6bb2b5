import InlineQuery.CommandLine.Execute
import InlineQuery.Proofs.Resolver.Memory
import InlineQuery.Proofs.Session.Freshness
import InlineQuery.Proofs.Session.Views

/-!
The endpoint that the execute command launches an operation with.
-/

namespace InlineQuery

namespace LensSet

/-- The lenses of a document name it in their arguments. -/
theorem uri_of_mem_lenses {document : SourceDocument} {set : LensSet} {lens : Lens}
    (made : ofDocument document = .ok set) (member : lens ∈ set.lenses) :
    lens.arguments.uri = document.uri := by
  unfold ofDocument at made
  cases index : indexOf document with
  | error e => rw [index] at made; cases made
  | ok index' =>
    rw [index] at made
    cases made
    obtain ⟨entry, _, inEntry⟩ := List.mem_flatMap.mp member
    obtain ⟨operation, _, rfl⟩ := List.mem_map.mp inEntry
    rfl

end LensSet

namespace Workspace

theorem uri_of_openFile {w next : Workspace} {fs : Files} {path : Path} {document : SourceDocument}
    (opened : w.openFile fs path = .ok (document, next)) :
    ∃ read, SourceDocument.ofFile fs path = .ok read ∧ document.uri = read.uri := by
  unfold openFile at opened
  cases isRead : SourceDocument.ofFile fs path with
  | error e => rw [isRead] at opened; cases opened
  | ok read =>
    rw [isRead] at opened
    cases opened
    refine ⟨read, rfl, ?_⟩
    split <;> rfl

end Workspace

namespace Session

variable {s t : Session} {fs : Files} {path : Path} {document : SourceDocument} {set : LensSet}

/-- A file that was opened is an open document with the lenses computed from it. -/
theorem openFile_ok (opened : s.openFile fs path = (.ok (document, set), t)) :
    (∃ read, SourceDocument.ofFile fs path = .ok read ∧ document.uri = read.uri) ∧
      LensSet.ofDocument document = .ok set ∧ t.workspace.get? document.uri = some document ∧
      t.resolver = s.resolver := by
  unfold openFile adopt at opened
  cases taken : s.workspace.openFile fs path with
  | error e => rw [taken] at opened; cases opened
  | ok pair =>
    obtain ⟨document', workspace⟩ := pair
    rw [taken] at opened
    dsimp only at opened
    cases computed : s.lenses.changed document' with
    | error e => rw [computed] at opened; cases opened
    | ok sets =>
      obtain ⟨set', lenses⟩ := sets
      rw [computed] at opened
      cases opened
      refine ⟨Workspace.uri_of_openFile taken, (LensCache.changed_ok computed).1, ?_, rfl⟩
      rw [Workspace.openFile_ok taken]
      dsimp only
      rw [Workspace.get?_put, beq_self_eq_true, if_pos rfl]

theorem resolver_lensesFor (s : Session) (uri : String) : (s.lensesFor uri).2.resolver = s.resolver := by
  unfold lensesFor
  split
  · rfl
  · split <;> rfl

theorem resolver_execute (s : Session) (id : String) (isWatched : Bool) (r : ExecuteRequest) :
    (s.execute id isWatched r).2.resolver = s.resolver := by
  unfold execute
  dsimp only
  split <;> exact resolver_lensesFor s r.uri

theorem run_of_getElem? {i : Nat} {x : ShownExecution} (found : s.shown[i]? = some x) :
    s.run i = s.put i { x with view := x.view.run } := by
  unfold run
  rw [found]

/-- What an execution is launched with is what its question is answered with. -/
theorem launch_of_created {i : Nat} {x : ShownExecution} (found : s.shown[i]? = some x)
    (created : x.handle.task = .created) (fs : Files) (net : Network) :
    let resolved := (s.resolver.resolve fs x.query).1.map (·.endpoint)
    let (handle, after) := x.handle.launch net (resolved.map some)
    (s.launch fs net i).1.shown[i]? = some { x with handle } ∧ (s.launch fs net i).2 = after := by
  have same : (s.resolver.resolve fs x.query).1.map (fun r => some r.endpoint) =
      ((s.resolver.resolve fs x.query).1.map (·.endpoint)).map some := by
    cases (s.resolver.resolve fs x.query).1 <;> rfl
  unfold launch
  rw [found]
  dsimp only
  rw [created]
  dsimp only
  rw [same]
  exact ⟨(getElem?_put found _ i).trans (if_pos rfl), rfl⟩

theorem prepare_ok {r : ExecuteRequest} {operation : Operation} {q : Resolver.Query}
    (prepared : prepare document set r = .ok (operation, q)) :
    ∃ file, document.path? = .ok file ∧ q = { project := r.project, endpoint := r.endpoint, file } := by
  unfold prepare at prepared
  cases found : findOperation set r with
  | error e => rw [found] at prepared; cases prepared
  | ok operation' =>
    rw [found] at prepared
    cases path : document.path? with
    | error e => rw [path] at prepared; cases prepared
    | ok file =>
      rw [path] at prepared
      cases prepared
      exact ⟨file, rfl, rfl⟩

end Session

namespace CommandLine

variable {fs : Files} {process : Environment} {o : ExecuteOptions}

/-- The endpoint that an operation of a file is sent to when it is executed, or why there is none. -/
def executedEndpoint (o : ExecuteOptions) (fs : Files) (process : Environment) :
    Except Failure Endpoint := do
  let s ← Session.start fs process process o.folders false true
  let document ← SourceDocument.ofFile fs (Path.ofString o.path)
  let file ← document.path?
  (s.resolver.resolve fs { project := o.project, endpoint := o.endpoint, file }).1.map (·.endpoint)

theorem mem_lenses_of_lens? {set : LensSet} {lens : Lens} (chosen : o.lens? set = some lens) :
    lens ∈ set.lenses := by
  unfold ExecuteOptions.lens? at chosen
  split at chosen
  · unfold LensSet.lensAtOffset at chosen
    obtain ⟨operation, _, found⟩ := Option.bind_eq_some_iff.mp chosen
    exact List.mem_of_find?_eq_some found
  · exact List.mem_of_find?_eq_some chosen
  · exact List.mem_of_mem_head? chosen

/-- The command launches the operation that it chose with this endpoint, or this failure. -/
theorem launch_executed {s t u : Session} {document : SourceDocument} {set : LensSet} {lens : Lens}
    {values : List (String × Datum)} {id : String} {i : Nat}
    (started : Session.start fs process process o.folders false true = .ok s)
    (opened : s.openFile fs (Path.ofString o.path) = (.ok (document, set), t))
    (chosen : o.lens? set = some lens)
    (executed : t.execute id true (o.request lens values) = (.ok i, u)) (net : Network) :
    ∃ x, (u.run i).shown[i]? = some x ∧ (x.handle.task = .created →
      let (handle, after) := x.handle.launch net ((executedEndpoint o fs process).map some)
      ((u.run i).launch fs net i).1.shown[i]? = some { x with handle } ∧
        ((u.run i).launch fs net i).2 = after) := by
  obtain ⟨⟨read, isRead, uri⟩, made, isOpen, resolver⟩ := Session.openFile_ok opened
  have fresh : t.IsFresh := (Session.isFresh_start started).adopt
    (fun _ _ taken => Workspace.openFile_ok taken) opened
  have named : (o.request lens values).uri = document.uri :=
    LensSet.uri_of_mem_lenses made (mem_lenses_of_lens? chosen)
  obtain ⟨set', _, prepared⟩ := fresh.execute_eq (named.symm ▸ isOpen) id true
  cases found : Session.prepare document set' (o.request lens values) with
  | error e =>
    rw [found] at prepared
    rw [prepared] at executed
    cases executed
  | ok pair =>
    obtain ⟨operation, query⟩ := pair
    rw [found] at prepared
    obtain ⟨next, same, shown⟩ := prepared
    obtain ⟨rfl, rfl⟩ : t.shown.length = i ∧ next = u := by
      rw [same] at executed
      cases executed
      exact ⟨rfl, rfl⟩
    obtain ⟨file, path, rfl⟩ := Session.prepare_ok found
    have answered : executedEndpoint o fs process = ((s.resolver.resolve fs
        { project := o.project, endpoint := o.endpoint, file }).1).map (·.endpoint) := by
      unfold executedEndpoint
      rw [started]
      dsimp only [bind, Except.bind]
      rw [isRead]
      dsimp only
      rw [SourceDocument.path?, ← uri, ← SourceDocument.path?, path]
    obtain ⟨x, isLast, query⟩ : ∃ x, next.shown[t.shown.length]? = some x ∧
        x.query = { project := o.project, endpoint := o.endpoint, file } :=
      ⟨_, by rw [shown]; exact List.getElem?_concat_length, rfl⟩
    have running := Session.run_of_getElem? isLast
    have isShown : (next.run t.shown.length).shown[t.shown.length]? =
        some { x with view := x.view.run } := by
      rw [running]
      exact (Session.getElem?_put isLast _ _).trans (if_pos rfl)
    have kept : (next.run t.shown.length).resolver = s.resolver := by
      have executes := t.resolver_execute id true (o.request lens values)
      rw [same] at executes
      rw [running]
      exact executes.trans resolver
    refine ⟨_, isShown, fun created => ?_⟩
    rw [answered, ← kept, ← query]
    exact Session.launch_of_created isShown created fs net

end CommandLine
end InlineQuery
