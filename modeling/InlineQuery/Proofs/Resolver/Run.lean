import InlineQuery.Proofs.Resolver.Memory

namespace InlineQuery
namespace Resolver

variable {r : Resolver} {fs : Files} {past : List Files}

/-- A step of those who use a resolver or who edit the files that it reads. -/
inductive Step where
  | resolve (q : Query)
  | invalidate (root : Option Path)
  | write (path : Path) (entry : FileEntry)
  | remove (path : Path)
  deriving DecidableEq

/-- The files after a step. -/
def Step.edit (fs : Files) : Step → Files
  | write path entry => fs.write path entry
  | remove path => fs.remove path
  | resolve _ | invalidate _ => fs

/-- A resolver and the files after a step. -/
def step (x : Resolver × Files) : Step → Resolver × Files
  | .resolve q => ((x.1.resolve x.2 q).2, x.2)
  | .invalidate root => (x.1.invalidate x.2 root, x.2)
  | .write path entry => (x.1, x.2.write path entry)
  | .remove path => (x.1, x.2.remove path)

/-- The files as they are before, between and after some steps. -/
def history (fs : Files) : List Step → List Files
  | [] => [fs]
  | a :: steps => fs :: history (a.edit fs) steps

theorem mem_history_append (fs : Files) (before after : List Step) :
    ∀ f ∈ history fs before, f ∈ history fs (before ++ after) := by
  induction before generalizing fs with
  | nil =>
    intro f member
    rw [history, List.mem_singleton] at member
    cases after <;> simp [history, member]
  | cons a before ih =>
    intro f member
    rcases List.mem_cons.mp member with rfl | later
    · exact List.mem_cons_self ..
    · exact List.mem_cons_of_mem _ (ih _ f later)

theorem IsSound.step (sound : r.IsSound past) (stamped : IsStamped r.folders past)
    (now : fs ∈ past) (a : Step) :
    r.SharesSources (Resolver.step (r, fs) a).1 ∧ (Resolver.step (r, fs) a).1.IsSound past ∧
      (Resolver.step (r, fs) a).2 = a.edit fs := by
  cases a with
  | resolve q =>
    obtain ⟨_, shared, kept⟩ := sound.resolve stamped now q
    exact ⟨shared, kept, rfl⟩
  | invalidate root =>
    obtain ⟨shared, kept⟩ := sound.invalidate fs root
    exact ⟨shared, kept, rfl⟩
  | write path entry => exact ⟨.refl r, sound, rfl⟩
  | remove path => exact ⟨.refl r, sound, rfl⟩

theorem IsSound.run {steps : List Step} (sound : r.IsSound past)
    (stamped : IsStamped r.folders past) (within : ∀ f ∈ history fs steps, f ∈ past) :
    r.SharesSources (steps.foldl Resolver.step (r, fs)).1 ∧
      (steps.foldl Resolver.step (r, fs)).1.IsSound past ∧
      (steps.foldl Resolver.step (r, fs)).2 = steps.foldl Step.edit fs ∧
      steps.foldl Step.edit fs ∈ past := by
  induction steps generalizing r fs with
  | nil => exact ⟨.refl r, sound, rfl, within fs (List.mem_singleton_self fs)⟩
  | cons a steps ih =>
    have now : fs ∈ past := within fs (List.mem_cons_self ..)
    obtain ⟨shared, kept, files⟩ := sound.step stamped now a
    have next : Resolver.step (r, fs) a = ((Resolver.step (r, fs) a).1, a.edit fs) :=
      Prod.ext rfl files
    rw [List.foldl_cons, List.foldl_cons, next]
    obtain ⟨sharedLast, last⟩ := ih kept (by rw [shared.folders]; exact stamped)
      (fun f member => within f (List.mem_cons_of_mem _ member))
    exact ⟨shared.trans sharedLast, last⟩

variable {folders : List Path} {process explicit : Environment} {steps : List Step}

/-- A new resolver for some folders and the files after some steps. -/
def runFrom (folders : List Path) (process explicit : Environment) (fs : Files)
    (steps : List Step) : Resolver × Files :=
  steps.foldl step (ofFolders folders process explicit, fs)

/-- What is answered after some steps. -/
def outcomeAfter (folders : List Path) (process explicit : Environment) (fs : Files)
    (steps : List Step) (q : Query) : Except Failure Endpoint :=
  let (r, now) := runFrom folders process explicit fs steps
  r.outcome now q

/-- After any steps a question is answered from the files as they are. -/
theorem outcomeAfter_eq_answer (stamped : IsStamped folders (history fs steps)) (q : Query) :
    outcomeAfter folders process explicit fs steps q =
      (ofFolders folders process explicit).answer (steps.foldl Step.edit fs) q := by
  obtain ⟨shared, sound, files, now⟩ := (isSound_ofFolders folders process explicit
    (history fs steps)).run stamped (fun _ member => member)
  obtain ⟨answered, _⟩ := sound.resolve (by rw [shared.folders]; exact stamped) now q
  rw [outcomeAfter, runFrom, ← shared.answer_eq, ← answered, ← files]

/-- A step that resolves adds nothing to what the files are over time. -/
theorem mem_history_resolve (fs : Files) (before between : List Step) (q : Query) :
    ∀ f ∈ history fs (before ++ between), f ∈ history fs (before ++ .resolve q :: between) := by
  induction before generalizing fs with
  | nil => exact fun f member => List.mem_cons_of_mem _ member
  | cons a before ih =>
    intro f member
    rcases List.mem_cons.mp member with rfl | later
    · exact List.mem_cons_self ..
    · exact List.mem_cons_of_mem _ (ih _ f later)

/-- Each step that resolves is answered as by a new resolver, and no such step, whether it fails or
not, is seen by a later one, if modification times tell the contents of each configuration file apart
and the environment files do not change. -/
theorem outcomeAfter_eq_fresh (stamped : IsStamped folders (history fs steps)) :
    (∀ before q after, steps = before ++ .resolve q :: after →
      outcomeAfter folders process explicit fs before q =
        (ofFolders folders process explicit).outcome
          (runFrom folders process explicit fs before).2 q) ∧
    ∀ before q between q' after, steps = before ++ .resolve q :: (between ++ .resolve q' :: after) →
      outcomeAfter folders process explicit fs (before ++ .resolve q :: between) q' =
        outcomeAfter folders process explicit fs (before ++ between) q' := by
  constructor
  · rintro before q after rfl
    have early : IsStamped folders (history fs before) := stamped.mono (mem_history_append fs _ _)
    have fresh := isSound_ofFolders folders process explicit (history fs before)
    obtain ⟨_, _, files, now⟩ := fresh.run early (fun _ member => member)
    rw [outcomeAfter_eq_answer early, runFrom, files]
    exact (fresh.resolve early now q).1.symm
  · rintro before q between q' after rfl
    have early : IsStamped folders (history fs (before ++ .resolve q :: between)) := by
      refine stamped.mono ?_
      rw [← List.cons_append, ← List.append_assoc]
      exact mem_history_append fs _ _
    have without := early.mono (mem_history_resolve fs before between q)
    rw [outcomeAfter_eq_answer early, outcomeAfter_eq_answer without]
    simp only [List.foldl_append, List.foldl_cons, Step.edit]

/-- A configuration file is written and read, another one is written in its place, and a question for
a project that does not exist fails. -/
theorem outcomeAfter_eq_fresh_replaced :
    let root : Path := ⟨"/", ["w"]⟩
    let file : Path := ⟨"/", ["w", ".graphqlconfig"]⟩
    let fs : Files := ⟨root, [], []⟩
    let q : Query := { root := some root }
    let before : List Step := [.write file ⟨Text.encodeUtf8 "extensions: 1", 1000⟩, .resolve q,
      .write file ⟨Text.encodeUtf8 "schemaPath: a", 2000⟩, .resolve { q with project := some "b" }]
    IsStamped [root] (history fs (before ++ [.resolve q])) ∧
      outcomeAfter [root] [] [] fs before q =
        (ofFolders [root] [] []).outcome (runFrom [root] [] [] fs before).2 q := by
  intro root file fs q before
  have entries : ∀ fs' ∈ history fs (before ++ [.resolve q]),
      ∀ other ∈ history fs (before ++ [.resolve q]), ∀ e ∈ fs'.files, ∀ e' ∈ other.files,
        e.2.bytes ≠ e'.2.bytes → e.2.modified ≠ e'.2.modified := by
    decide +kernel
  have stamped : IsStamped [root] (history fs (before ++ [.resolve q])) := by
    refine ⟨?_, by decide⟩
    intro fs' now other past path _ entry entry' here there
    obtain ⟨_, isEntry⟩ := Files.mem_of_lookup? here
    obtain ⟨_, isEntry'⟩ := Files.mem_of_lookup? there
    exact entries fs' now other past _ isEntry _ isEntry'
  exact ⟨stamped, (outcomeAfter_eq_fresh stamped).1 before q [] rfl⟩

end Resolver
end InlineQuery
