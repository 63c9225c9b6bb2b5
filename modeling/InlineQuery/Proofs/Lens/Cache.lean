import InlineQuery.Proofs.Session.Freshness

/-!
The sets that a cache of lenses hands out. A set is current for a document of the same address,
version and text, and was made from one that may be in another language.
-/

namespace InlineQuery.LensCache

/-- What is asked of a cache. -/
inductive Call where
  | provide (document : SourceDocument)
  | changed (document : SourceDocument)
  | closed (uri : String)
  deriving DecidableEq, Repr, Inhabited

/-- The cache behind a call. One that fails leaves it as it is. -/
def next (cache : LensCache) : Call → LensCache
  | .provide document => ((cache.provide document).toOption.map (·.2)).getD cache
  | .changed document => ((cache.changed document).toOption.map (·.2)).getD cache
  | .closed uri => cache.closed uri

def run (cache : LensCache) (calls : List Call) : LensCache := calls.foldl next cache

/-- The documents that the sets of a cache were made from, by their addresses. -/
abbrev Origins : Type := String → Option SourceDocument

namespace Origins

/-- A document takes the place of the one before it if its lenses can be computed. -/
def renew (origins : Origins) (document : SourceDocument) : Origins := fun uri =>
  if (LensSet.ofDocument document).isOk && document.uri == uri then some document else origins uri

/-- Whether there is a document of the same address, version and text. -/
def hold (origins : Origins) (document : SourceDocument) : Bool :=
  (origins document.uri).any fun earlier =>
    earlier.version == document.version && earlier.text == document.text

def next (origins : Origins) : Call → Origins
  | .provide document => if origins.hold document then origins else origins.renew document
  | .changed document => origins.renew document
  | .closed uri => fun other => if uri == other then none else origins other

end Origins

/-- The document that the set for an address was made from in the course of some calls. -/
def origin (calls : List Call) (uri : String) : Option SourceDocument :=
  calls.foldl Origins.next (fun _ => none) uri

/-- Each set of a cache was made from a document of its address. -/
structure IsMadeFrom (cache : LensCache) (origins : Origins) : Prop where
  held : ∀ {uri document}, origins uri = some document → document.uri = uri ∧
    ∃ set, LensSet.ofDocument document = .ok set ∧ cache.get? uri = some set
  absent : ∀ {uri}, origins uri = none → cache.get? uri = none

variable {cache : LensCache} {origins : Origins} {document : SourceDocument}

theorem isMadeFrom_empty : IsMadeFrom empty fun _ => none := ⟨nofun, fun _ => rfl⟩

/-- Two documents of one address, version and text differ in their languages only. -/
theorem eq_of_same {earlier : SourceDocument} (uri : earlier.uri = document.uri)
    (version : earlier.version = document.version) (text : earlier.text = document.text) :
    earlier = { document with language := earlier.language } := by
  cases earlier
  cases uri
  cases version
  cases text
  rfl

/-- A set keeps the version and the text that it was made from. -/
theorem isCurrent_iff {earlier : SourceDocument} {set : LensSet}
    (made : LensSet.ofDocument earlier = .ok set) : set.isCurrent document =
      (earlier.version == document.version && earlier.text == document.text) := by
  unfold LensSet.ofDocument at made
  cases index : LensSet.indexOf earlier with
  | error e => rw [index] at made; cases made
  | ok index' =>
    rw [index] at made
    cases made
    rfl

namespace IsMadeFrom

theorem renew (made : cache.IsMadeFrom origins) (document : SourceDocument) :
    IsMadeFrom (cache.next (.changed document)) (origins.renew document) := by
  cases computed : cache.changed document with
  | error e =>
    have fails : (LensSet.ofDocument document).isOk = false := by
      unfold changed at computed
      cases set : LensSet.ofDocument document with
      | error e => rfl
      | ok set => rw [set] at computed; cases computed
    have same : origins.renew document = origins := by
      funext uri
      simp [Origins.renew, fails]
    rw [same, next, computed]
    exact made
  | ok answer =>
    obtain ⟨set, after⟩ := answer
    obtain ⟨isSet, sets⟩ := changed_ok computed
    have renewed (uri : String) : origins.renew document uri =
        if document.uri == uri then some document else origins uri := by
      simp [Origins.renew, isSet, Except.isOk, Except.toBool]
    have isAfter : cache.next (.changed document) = after := by rw [next, computed]; rfl
    rw [isAfter]
    constructor
    · intro uri earlier isOrigin
      rw [renewed] at isOrigin
      rw [sets]
      split at isOrigin
      · rename_i same
        cases isOrigin
        exact ⟨beq_iff_eq.mp same, set, isSet, if_pos same⟩
      · rename_i other
        obtain ⟨sameUri, old, isOld, found⟩ := made.held isOrigin
        exact ⟨sameUri, old, isOld, (if_neg other).trans found⟩
    · intro uri noOrigin
      rw [renewed] at noOrigin
      rw [sets]
      split at noOrigin
      · cases noOrigin
      · rename_i other
        exact (if_neg other).trans (made.absent noOrigin)

/-- A set that is held is handed out again, and else it is computed. -/
theorem provide_eq (made : cache.IsMadeFrom origins) (document : SourceDocument) :
    cache.provide document = if origins.hold document then
      (((origins document.uri).getD document |> LensSet.ofDocument).map fun set => (set, cache))
    else cache.changed document := by
  unfold provide current? Origins.hold
  cases isOrigin : origins document.uri with
  | none => simp [made.absent isOrigin]
  | some earlier =>
    obtain ⟨-, set, isSet, found⟩ := made.held isOrigin
    rw [found, Option.any_some, Option.getD_some, Option.filter_some, isCurrent_iff isSet, isSet]
    cases earlier.version == document.version && earlier.text == document.text <;> rfl

theorem next (made : cache.IsMadeFrom origins) (call : Call) :
    IsMadeFrom (cache.next call) (origins.next call) := by
  cases call with
  | provide document =>
    rw [LensCache.next, made.provide_eq, Origins.next]
    split
    · rename_i held
      have same : ((((origins document.uri).getD document |> LensSet.ofDocument).map
          fun set => (set, cache)).toOption.map (·.2)).getD cache = cache := by
        cases LensSet.ofDocument ((origins document.uri).getD document) <;> rfl
      rw [same]
      exact made
    · exact made.renew document
  | changed document => exact made.renew document
  | closed uri =>
    rw [LensCache.next, Origins.next]
    constructor
    · intro other earlier isOrigin
      rw [get?_closed]
      split at isOrigin
      · cases isOrigin
      · rename_i apart
        rw [if_neg apart]
        exact made.held isOrigin
    · intro other noOrigin
      rw [get?_closed]
      split at noOrigin
      · rename_i same
        exact if_pos same
      · rename_i apart
        exact (if_neg apart).trans (made.absent noOrigin)

theorem run (made : cache.IsMadeFrom origins) (calls : List Call) :
    IsMadeFrom (cache.run calls) (calls.foldl Origins.next origins) := by
  induction calls generalizing cache origins with
  | nil => exact made
  | cons call calls ih => exact ih (made.next call)

end IsMadeFrom

/-- After any calls the set that is handed out for a document is that of the document if and only if
the language of the one that it was made from makes no difference. -/
theorem run_provide_iff {calls : List Call} {document : SourceDocument} {set : LensSet}
    {after : LensCache} (provided : (empty.run calls).provide document = .ok (set, after)) :
    LensSet.ofDocument document = .ok set ↔ ∀ earlier ∈ origin calls document.uri,
      earlier.version = document.version → earlier.text = document.text →
        LensSet.ofDocument { document with language := earlier.language } =
          LensSet.ofDocument document := by
  have made : IsMadeFrom (empty.run calls) (origin calls) := isMadeFrom_empty.run calls
  rw [made.provide_eq] at provided
  split at provided
  · rename_i held
    obtain ⟨earlier, isOrigin, same⟩ := Option.any_eq_true .. |>.mp held
    simp only [Bool.and_eq_true, beq_iff_eq] at same
    obtain ⟨uri, old, isOld, -⟩ := made.held isOrigin
    have isSet : LensSet.ofDocument { document with language := earlier.language } = .ok set := by
      rw [← eq_of_same uri same.1 same.2, isOld]
      simp only [isOrigin, Option.getD_some, isOld] at provided
      cases provided
      rfl
    rw [← isSet, isOrigin]
    constructor
    · rintro alike _ ⟨⟩ - -
      exact alike.symm
    · intro alike
      exact (alike earlier rfl same.1 same.2).symm
  · rename_i notHeld
    refine ⟨fun _ earlier isOrigin version text => ?_, fun _ => (changed_ok provided).1⟩
    refine absurd ?_ notHeld
    have isOrigin : origin calls document.uri = some earlier := isOrigin
    simp [Origins.hold, isOrigin, version, text]

/-- A document is changed, closed, and opened again under the same address. -/
theorem run_provide_iff_reopened :
    let first : SourceDocument := ⟨"file:///a", "gql\x60\x7b a \x7d\x60".toList, .javascript, 0⟩
    let second : SourceDocument := { first with text := "gql\x60\x7b b \x7d\x60".toList, version := 1 }
    let calls := [.provide first, .changed second, .closed "file:///a", .provide second, .provide first]
    ∃ set after, (empty.run calls).provide first = .ok (set, after) ∧
      LensSet.ofDocument first = .ok set := by
  intro first second calls
  obtain ⟨⟨set, after⟩, provided, alike⟩ :
      ∃ answer ∈ ((empty.run calls).provide first).toOption,
        ∀ earlier ∈ origin calls first.uri, earlier.language = first.language := by
    decide +kernel
  have provided := eq_ok_of_mem_toOption provided
  refine ⟨set, after, provided, (run_provide_iff provided).mpr fun earlier isOrigin _ _ => ?_⟩
  rw [alike earlier isOrigin]

/-- A text is opened again in no language that is known, with the version and the address that it had:
the lens that it had as a script is handed out for it. -/
theorem run_provide_ne_language :
    let first : SourceDocument := ⟨"file:///a", "gql\x60\x7b a \x7d\x60".toList, .javascript, 0⟩
    let second : SourceDocument := { first with language := .unknown }
    ∃ set after, (empty.run [.provide first]).provide second = .ok (set, after) ∧
      LensSet.ofDocument second ≠ .ok set := by
  intro first second
  obtain ⟨⟨set, after⟩, provided, other⟩ :
      ∃ answer ∈ ((empty.run [.provide first]).provide second).toOption,
        (LensSet.ofDocument second).toOption.map (·.lenses.length) ≠ some answer.1.lenses.length := by
    decide +kernel
  refine ⟨set, after, eq_ok_of_mem_toOption provided, fun same => other ?_⟩
  rw [same]
  rfl

end InlineQuery.LensCache
